import V91Core.Effect.Frame
import V91Core.Worker.Custody

namespace V91Core.Worker

open V91Core.Python V91Core.Effect V91Core.Audit

variable {ι : Type}

section Names

variable (i : ι)

-- The worker has made the name for a file, and nothing else is kept under it.
def Owns (name : PyStr) (s : Shared ι) : Prop :=
  (∃ u, s.drawn u = some i ∧ Bears u name ∧ s.queue ⟨.done, name⟩ = none ∧ s.queue ⟨.failed, name⟩ = none) ∧
    ∃ c ∈ s.claims, c.worker = i ∧ c.name = name

-- The identifier is the worker's, and no name that a worker has made bears it.
def Drawn (u : UuidHex) (s : Shared ι) : Prop :=
  s.drawn u = some i ∧ ∀ place : Place, place.dir ≠ .pending → Bears u place.name → s.queue place = none

variable {i}

theorem Owns.of_queue {name : PyStr} {s s' : Shared ι} (h : Owns i name s) (hqueue : s'.queue = s.queue)
    (hdrawn : s'.drawn = s.drawn) (hclaims : s'.claims = s.claims) : Owns i name s' := by
  obtain ⟨⟨u, hu, hrest⟩, hclaim⟩ := h
  rw [← hdrawn] at hu
  rw [← hqueue] at hrest
  rw [← hclaims] at hclaim
  exact ⟨⟨u, hu, hrest⟩, hclaim⟩

theorem note_of_ne (s : Shared ι) (c : TaskOp) (answer : Except PyExc c.Res)
    (h : ∀ taskId payload, c ≠ .atomicResult taskId payload) : note i s c answer = s := by
  cases c with
  | atomicResult taskId payload => exact absurd rfl (h taskId payload)
  | _ => rfl

end Names

variable [DecidableEq ι] {i : ι}

theorem Owns.stable {name : PyStr} (s s' : Shared ι) (hrely : contract.Rely i s s') (h : Owns i name s) :
    Owns i name s' := by
  obtain ⟨⟨u, hu, hbears, hdone, hfailed⟩, c, hc, hclaim⟩ := h
  obtain ⟨hu', hqueue⟩ := hrely.2.drawn u hu
  refine ⟨⟨u, hu', hbears, ?_, ?_⟩, c, hrely.1.claims c hc, hclaim⟩
  · rw [hqueue ⟨.done, name⟩ (by simp) hbears, hdone]
  · rw [hqueue ⟨.failed, name⟩ (by simp) hbears, hfailed]

theorem Drawn.stable {u : UuidHex} (s s' : Shared ι) (hrely : contract.Rely i s s') (h : Drawn i u s) :
    Drawn i u s' := by
  obtain ⟨hu', hqueue⟩ := hrely.2.drawn u h.1
  exact ⟨hu', fun place hdir hbears => (hqueue place hdir hbears).trans (h.2 place hdir hbears)⟩

section Operations

theorem quiet_of_onHandle (op : WorkerOp) (h : op.onHandle = true) : op.quiet = false := by
  cases op <;> first | rfl | cases h

theorem quiet_step (op : WorkerOp) (hop : op.quiet = true) (s : Shared ι) (r : Except PyExc op.Res) (s' : Shared ι)
    (hexec : Exec i s op r s') : s' = s := by
  cases hexec with
  | quiet _ _ _ => rfl
  | fails _ e => rfl
  | breaks _ e content hhandle => exact absurd (hop.symm.trans (quiet_of_onHandle op hhandle)) (by decide)
  | _ => cases hop

-- A program of operations that leave the directories as they are.
theorem sat_quiet {α : Type} {p : Action α} (hp : p.Only fun op => op.quiet = true) {P : Shared ι → Prop}
    (hstable : ∀ s s', contract.Rely i s s' → P s → P s') {s : Shared ι} (h : P s) :
    contract.Sat i (fun s' _ => P s') p s := by
  have hsat : contract.Sat i (fun _ _ => True) p s := by
    refine Contract.sat_of_only (fun op s r s' hop hinv hexec => ?_) hp s
    obtain rfl := quiet_step op hop s r s' hexec
    exact ⟨hinv, contract.guar_refl i s'⟩
  refine (hsat.frame hstable (fun op s r s' hop _ hexec h => ?_) hp h).mono fun s' r _ h => h.1
  obtain rfl := quiet_step op hop s r s' hexec
  exact h

-- A clean-up action that is cut short by some exceptions.
theorem only_guarded {Op : Type} {Res : Op → Type} {ε : Type} {Q : Op → Prop} {p : Prog Op Res ε Unit}
    (hp : p.Only Q) (test : ε → Prop) [DecidablePred test] :
    (Prog.catching (fun e => if test e then .ret () else .raise e) p).Only Q :=
  hp.catching fun e => by split <;> trivial

end Operations

section Audit

-- The operations of `append_audit` on the directories.
abbrev auditContract : Contract (system.comap (ι := ι) WorkerOp.audit fun _ b => b) := contract.comap _ _

theorem audit_quiet_step (op : AuditOp) (hop : (WorkerOp.audit op).quiet = true) (s : Shared ι)
    (r : Except PyExc op.Res)
    (s' : Shared ι) (hexec : (system.comap (ι := ι) WorkerOp.audit fun _ b => b).exec i s op r s') : s' = s := by
  obtain ⟨r', -, hexec⟩ := hexec
  exact quiet_step _ hop s r' s' hexec

theorem sat_audit_quiet {α : Type} {p : Audit.Action α} (hp : p.Only fun op => (WorkerOp.audit op).quiet = true)
    {P : Shared ι → Prop} (hstable : ∀ s s', contract.Rely i s s' → P s → P s') {s : Shared ι} (h : P s) :
    auditContract.Sat i (fun s' _ => P s') p s := by
  have hsat : auditContract.Sat i (fun _ _ => True) p s := by
    refine Contract.sat_of_only (fun op s r s' hop hinv hexec => ?_) hp s
    obtain rfl := audit_quiet_step op hop s r s' hexec
    exact ⟨hinv, contract.guar_refl i s'⟩
  refine (hsat.frame (C := auditContract) hstable (fun op s r s' hop _ hexec h => ?_) hp h).mono fun s' r _ h => h.1
  obtain rfl := audit_quiet_step op hop s r s' hexec
  exact h

theorem lockedAppend_quiet (rt : Runtime) (pid : Nat) (event : Json) :
    (lockedAppend rt pid event).Only fun op => (WorkerOp.audit op).quiet = true := by
  have hquiet : ∀ op : AuditOp, (WorkerOp.audit op).quiet = true →
      (Audit.perform op).Only fun op => (WorkerOp.audit op).quiet = true := fun op hop => Prog.only_perform op hop
  refine (hquiet .utcNow rfl).bind fun now => (Prog.only_ofExcept _).bind fun text => ?_
  refine (hquiet (.writeLock text) rfl).bind fun _ => (hquiet .syncLock rfl).bind fun _ => ?_
  refine (hquiet .openLog rfl).bind fun _ => Prog.Only.finishing ?_ (hquiet .closeLog rfl)
  exact (Prog.only_ofExcept _).bind fun line => (hquiet (.writeLine line) rfl).bind fun _ => hquiet .syncLog rfl

-- What the lock and the refusals do not matter for.
structure LockFree (i : ι) (P : Shared ι → Prop) : Prop where
  stable : ∀ s s', contract.Rely i s s' → P s → P s'
  lock : ∀ s lock, P s → P { s with lock := lock }
  refused : ∀ s refused, P s → P { s with refused := refused }

theorem sat_acquireLock {P : Shared ι → Prop} (hP : LockFree i P) (lockPath : PyStr) {s : Shared ι} (h : P s) :
    auditContract.Sat i (fun s' r => P s' ∧ (r = .ok () → s'.lock = some i)) (acquireLock lockPath) s := by
  refine Contract.Sat.catching (M := fun s' (r : Except PyExc Unit) => P s' ∧ (r = .ok () → s'.lock = some i)) ?_
    (fun s' _ _ h => h) ?_
  · refine Contract.sat_perform fun s' hrely hinv r s'' hexec => ?_
    have h' := hP.stable s s' hrely h
    obtain ⟨r', rfl, hexec⟩ := hexec
    cases hexec with
    | quiet _ _ hquiet => cases hquiet
    | fails _ e =>
        exact ⟨hinv, contract.guar_refl i s', fun s''' hrely' _ => ⟨hP.stable _ s''' hrely' h', by simp [Except.map]⟩⟩
    | breaks _ e content hop => cases hop
    | createLock hlock =>
        have hstep := acquire_step s' i hinv hlock _ rfl
        exact ⟨hstep.1, hstep.2, fun s''' hrely' _ =>
          ⟨hP.stable _ s''' hrely' (hP.lock s' (some i) h'), fun _ => hrely'.2.lock rfl⟩⟩
    | refused j hlock e =>
        have hstep := refused_step s' i hinv _ rfl
        exact ⟨hstep.1, hstep.2, fun s''' hrely' _ =>
          ⟨hP.stable _ s''' hrely' (hP.refused s' _ h'), by simp [Except.map]⟩⟩
  · intro s' e _ h'
    split
    · exact fun s'' hrely _ => ⟨hP.stable s' s'' hrely h'.1, by simp⟩
    · exact fun s'' hrely _ => ⟨hP.stable s' s'' hrely h'.1, by simp⟩

theorem sat_releaseLock {P : Shared ι → Prop} (hP : LockFree i P) {s : Shared ι} (h : P s) (hlock : s.lock = some i) :
    auditContract.Sat i (fun s' _ => P s') releaseLock s := by
  have hboth : ∀ s s', contract.Rely i s s' → P s ∧ s.lock = some i → P s' ∧ s'.lock = some i :=
    fun s s' hrely h => ⟨hP.stable s s' hrely h.1, hrely.2.lock h.2⟩
  refine (sat_audit_quiet (Prog.only_perform .closeLock rfl) hboth ⟨h, hlock⟩).bind ?_ ?_
  swap
  · exact fun s' e _ h' => h'.1
  intro s _ _ h
  refine Contract.Sat.catching (M := fun s' (_ : Except PyExc Unit) => P s') ?_ (fun s' _ _ h => h) ?_
  · refine Contract.sat_perform fun s' hrely hinv r s'' hexec => ?_
    obtain ⟨h', hlock'⟩ := hboth s s' hrely h
    obtain ⟨r', rfl, hexec⟩ := hexec
    cases hexec with
    | quiet _ _ hquiet => cases hquiet
    | fails _ e => exact ⟨hinv, contract.guar_refl i s', fun s''' hrely' _ => hP.stable _ s''' hrely' h'⟩
    | breaks _ e content hop => cases hop
    | unlinkLock j hj =>
        have hstep := release_step s' i hinv hlock' _ rfl
        exact ⟨hstep.1, hstep.2, fun s''' hrely' _ => hP.stable _ s''' hrely' (hP.lock s' none h')⟩
  · intro s' e _ h'
    split
    · exact fun s'' hrely _ => hP.stable s' s'' hrely h'
    · exact fun s'' hrely _ => hP.stable s' s'' hrely h'

theorem sat_appendAudit (cfg : Config) (event : Fields) {P : Shared ι → Prop} (hP : LockFree i P)
    {s : Shared ι} (h : P s) : contract.Sat i (fun s' _ => P s') (body cfg (.appendAudit event)) s := by
  refine Contract.Sat.comap (C := contract) ?_
  refine (sat_audit_quiet (Prog.only_perform .makeParent rfl) hP.stable h).bind ?_ ?_
  swap
  · exact fun s' e _ h' => h'
  intro s _ _ h
  refine (sat_acquireLock hP cfg.auditLockPath h).bind ?_ ?_
  swap
  · exact fun s' e _ h' => h'.1
  rintro s _ _ ⟨h, hlock⟩
  have hboth : ∀ s s', contract.Rely i s s' → P s ∧ s.lock = some i → P s' ∧ s'.lock = some i :=
    fun s s' hrely h => ⟨hP.stable s s' hrely h.1, hrely.2.lock h.2⟩
  refine Contract.Sat.finishing (sat_audit_quiet (lockedAppend_quiet cfg.rt cfg.pid _) hboth ⟨h, hlock rfl⟩) ?_
    fun s' s'' r hrely _ => hP.stable s' s'' hrely
  intro s' r _ h'
  refine (sat_releaseLock hP h'.1 h'.2).mono fun s'' r _ h'' => ?_
  cases r with
  | ok u => exact h''
  | error e => exact h''

theorem owns_lockFree (name : PyStr) : LockFree i (Owns i name) :=
  ⟨Owns.stable, fun _ _ h => h.of_queue rfl rfl rfl, fun _ _ h => h.of_queue rfl rfl rfl⟩

end Audit

section Result

variable (cfg : Config)

-- The worker has made the result, which has not been returned.
def Unreturned (i : ι) (taskId : PyStr) (s : Shared ι) : Prop :=
  ∃ n, s.results taskId = some n ∧ MadeBy i n s ∧ taskId ∉ s.returned

theorem Unreturned.stable {taskId : PyStr} (s s' : Shared ι) (hrely : contract.Rely i s s')
    (h : Unreturned i taskId s) : Unreturned i taskId s' := by
  obtain ⟨n, hn, hmade, hreturned⟩ := h
  obtain ⟨hn', -, hback⟩ := hrely.2.result taskId n hn hmade
  exact ⟨n, hn', hrely.2.madeBy hn hmade, fun ht => hreturned (hback ht)⟩

theorem onHandle_step (op : WorkerOp) (hop : op.onHandle = true) (s : Shared ι) (hinv : s.Inv)
    (r : Except PyExc op.Res) (s' : Shared ι) (hexec : Exec i s op r s') {taskId : PyStr}
    (h : Unreturned i taskId s) : s'.Inv ∧ contract.Guar i s s' ∧ Unreturned i taskId s' := by
  obtain ⟨n, hn, hmade, hreturned⟩ := h
  have hfill : ∀ content, (s.fill i content).results = s.results ∧ (s.fill i content).returned = s.returned := by
    intro content
    unfold Shared.fill
    split <;> exact ⟨rfl, rfl⟩
  have hfilled : ∀ content, Unreturned i taskId (s.fill i content) := by
    intro content
    refine ⟨n, ?_, fill_madeBy s i hinv content i n hmade, ?_⟩
    · rw [(hfill content).1, hn]
    · rwa [(hfill content).2]
  cases hexec with
  | quiet _ _ hquiet => exact absurd (hquiet.symm.trans (quiet_of_onHandle op hop)) (by decide)
  | fails _ e => exact ⟨hinv, contract.guar_refl i s, n, hn, hmade, hreturned⟩
  | breaks _ e content => exact ⟨(fill_step s i hinv content).1, (fill_step s i hinv content).2, hfilled content⟩
  | openResult taskId' => exact ⟨hinv, contract.guar_refl i s, n, hn, hmade, hreturned⟩
  | writeResult taskId' content => exact ⟨(fill_step s i hinv _).1, (fill_step s i hinv _).2, hfilled _⟩
  | syncResult taskId' => exact ⟨hinv, contract.guar_refl i s, n, hn, hmade, hreturned⟩
  | closeResult taskId' => exact ⟨(close_step s i hinv).1, (close_step s i hinv).2, n, hn, hmade, hreturned⟩
  | _ => cases hop

theorem sat_onHandle (op : WorkerOp) (hop : op.onHandle = true) {taskId : PyStr} {s : Shared ι}
    (h : Unreturned i taskId s) : contract.Sat i (fun s' _ => Unreturned i taskId s') (perform op) s := by
  refine Contract.sat_perform fun s₁ hrely hinv r s₂ hexec => ?_
  obtain ⟨hinv', hguar, h'⟩ := onHandle_step op hop s₁ hinv r s₂ hexec (h.stable s s₁ hrely)
  exact ⟨hinv', hguar, fun s₃ hrely' _ => h'.stable s₂ s₃ hrely'⟩

-- The worker has made and closed the result.
def Ready (i : ι) (taskId : PyStr) (s : Shared ι) : Prop := Unreturned i taskId s ∧ s.handle i = none

theorem Ready.stable {taskId : PyStr} (s s' : Shared ι) (hrely : contract.Rely i s s') (h : Ready i taskId s) :
    Ready i taskId s' :=
  ⟨h.1.stable s s' hrely, hrely.2.handle.trans h.2⟩

theorem sat_closeResult (taskId : PyStr) {s : Shared ι} (h : Unreturned i taskId s) :
    contract.Sat i (fun s' r => Unreturned i taskId s' ∧ (r = .ok () → s'.handle i = none))
      (perform (.closeResult taskId)) s := by
  refine Contract.sat_perform fun s₁ hrely hinv r s₂ hexec => ?_
  obtain ⟨hinv', hguar, h'⟩ := onHandle_step _ rfl s₁ hinv r s₂ hexec (h.stable s s₁ hrely)
  refine ⟨hinv', hguar, fun s₃ hrely' _ => ⟨h'.stable s₂ s₃ hrely', fun hr => ?_⟩⟩
  rw [hrely'.2.handle]
  subst hr
  cases hexec with
  | quiet _ _ hquiet => cases hquiet
  | closeResult _ => rw [Shared.handle_close, if_pos rfl]

theorem sat_fillResult (taskId : PyStr) (content : Bytes) {s : Shared ι} (h : Unreturned i taskId s) :
    contract.Sat i (fun s' r => Unreturned i taskId s' ∧ (r = .ok () → Ready i taskId s'))
      (fillResult taskId content) s := by
  refine (sat_onHandle (.openResult taskId) rfl h).bind ?_ fun s' e _ h' => ⟨h', by simp⟩
  intro s _ _ h
  refine Contract.Sat.finishing (M := fun s' _ => Unreturned i taskId s') ?_ ?_ ?_
  · refine (sat_onHandle (.writeResult taskId content) rfl h).bind ?_ fun s' e _ h' => h'
    exact fun s _ _ h => sat_onHandle (.syncResult taskId) rfl h
  · intro s' r _ h'
    refine (sat_closeResult taskId h').mono fun s'' closed _ ⟨h'', hclosed⟩ => ?_
    cases closed with
    | ok u => exact ⟨h'', fun _ => ⟨h'', hclosed rfl⟩⟩
    | error e => exact ⟨h'', by simp⟩
  · exact fun s' s'' r hrely _ ⟨h', hready⟩ => ⟨h'.stable s' s'' hrely, fun hr => (hready hr).stable s' s'' hrely⟩

-- The result of a file that the worker has claimed.
theorem sat_createResult {name : PyStr} {s : Shared ι} (h : Owns i name s) :
    contract.Sat i (fun s' r => r = .ok () → Unreturned i (taskIdOf name) s') (createResult (taskIdOf name)) s := by
  refine Contract.Sat.catching
    (M := fun s' (r : Except PyExc Unit) => r = .ok () → Unreturned i (taskIdOf name) s') ?_ (fun s' _ _ h => h) ?_
  · refine Contract.sat_perform fun s₁ hrely hinv r s₂ hexec => ?_
    obtain ⟨-, c, hc, hworker, hname⟩ := h.stable s s₁ hrely
    cases hexec with
    | quiet _ _ hquiet => cases hquiet
    | fails _ e => exact ⟨hinv, contract.guar_refl i s₁, fun _ _ _ => by simp⟩
    | breaks _ e content hop => cases hop
    | createResult _ n hfree hnew =>
        have hstep := create_step s₁ i hinv _ n hfree hnew ⟨c, hc, hworker, congrArg taskIdOf hname⟩
        refine ⟨hstep.1, hstep.2, fun s₃ hrely _ _ => Unreturned.stable _ s₃ hrely ?_⟩
        refine ⟨n, by rw [Shared.results_create, if_pos rfl],
          ⟨[], by rw [Shared.files_create, if_pos rfl]⟩, fun ht => ?_⟩
        obtain ⟨m, hm, -⟩ := hinv.published _ ht
        rw [hfree] at hm
        cases hm
  · intro s' e _ _
    split
    · exact fun _ _ _ => by simp
    · exact fun _ _ _ => by simp

theorem sat_discardResult (taskId : PyStr) (e : PyExc) {s : Shared ι} (h : Unreturned i taskId s) :
    contract.Sat i (fun _ r => ∃ e', r = .error e') (discardResult taskId e) s := by
  refine Contract.Sat.bind (M := fun _ _ => True) ?_ (fun _ _ _ _ => fun _ _ _ => ⟨e, rfl⟩) fun _ e' _ _ => ⟨e', rfl⟩
  refine Contract.Sat.catching (M := fun _ _ => True) ?_ (fun _ _ _ _ => trivial) ?_
  · refine Contract.sat_perform fun s₁ hrely hinv r s₂ hexec => ?_
    obtain ⟨n, hn, hmade, hreturned⟩ := h.stable s s₁ hrely
    cases hexec with
    | quiet _ _ hquiet => cases hquiet
    | fails _ e => exact ⟨hinv, contract.guar_refl i s₁, fun _ _ _ => trivial⟩
    | breaks _ e content hop => cases hop
    | unlinkResult _ m hm =>
        have hstep := unlink_step s₁ i hinv taskId n hn hmade hreturned
        exact ⟨hstep.1, hstep.2, fun _ _ _ => trivial⟩
  · intro s' e' _ _
    split
    · exact fun _ _ _ => trivial
    · exact fun _ _ _ => trivial

theorem sat_atomicResult (payload : Fields) {name : PyStr} {s : Shared ι} (h : Owns i name s) :
    contract.Sat i (fun s' r => r = .ok () → Ready i (taskIdOf name) s')
      (atomicResult cfg.rt (taskIdOf name) payload) s := by
  unfold atomicResult
  split
  · refine Contract.sat_ofExcept_bind (fun content _ => ?_) fun e _ _ _ => by simp
    refine (sat_createResult h).bind ?_ fun s' e _ _ => by simp
    intro s' _ _ h
    refine (sat_fillResult _ content (h rfl)).catching (fun s'' _ _ h' hr => h'.2 hr) fun s'' e _ h' => ?_
    refine (sat_discardResult _ e h'.1).mono fun _ r _ hr => ?_
    obtain ⟨e', rfl⟩ := hr
    simp
  · exact fun _ _ _ => by simp

-- The operations that move no file and draw no identifier.
def WorkerOp.keepsQueue : WorkerOp → Bool
  | .uuid4 | .rename _ _ => false
  | _ => true

theorem keepsQueue_step (op : WorkerOp) (hop : op.keepsQueue = true) (s : Shared ι) (r : Except PyExc op.Res)
    (s' : Shared ι) (hexec : Exec i s op r s') :
    s'.queue = s.queue ∧ s'.drawn = s.drawn ∧ s'.claims = s.claims := by
  have hfill : ∀ content, (s.fill i content).queue = s.queue ∧ (s.fill i content).drawn = s.drawn ∧
      (s.fill i content).claims = s.claims := by
    intro content
    unfold Shared.fill
    split <;> exact ⟨rfl, rfl, rfl⟩
  cases hexec with
  | breaks _ e content => exact hfill content
  | writeResult taskId content => exact hfill _
  | uuid4 u => cases hop
  | rename source target d => cases hop
  | _ => exact ⟨rfl, rfl, rfl⟩

theorem atomicResult_keepsQueue (taskId : PyStr) (payload : Fields) :
    (atomicResult cfg.rt taskId payload).Only fun op => op.keepsQueue = true := by
  have hop : ∀ op : WorkerOp, op.keepsQueue = true → (perform op).Only fun op => op.keepsQueue = true :=
    fun op h => Prog.only_perform op h
  unfold atomicResult
  split
  · refine (Prog.only_ofExcept _).bind fun content => ?_
    refine ((hop (.createResult taskId) rfl).catching fun e => by split <;> trivial).bind fun _ => ?_
    refine ((hop (.openResult taskId) rfl).bind fun _ => ?_).catching fun e => ?_
    · exact ((hop (.writeResult taskId content) rfl).bind fun _ => hop (.syncResult taskId) rfl).finishing
        (hop (.closeResult taskId) rfl)
    · exact ((hop (.unlinkResult taskId) rfl).catching fun e => by split <;> trivial).bind fun _ => trivial
  · trivial

end Result

section Claim

variable (cfg : Config)

theorem sat_uuid4 (s : Shared ι) :
    contract.Sat i (fun s' r => ∀ u, r = .ok u → Drawn i u s') (perform .uuid4) s := by
  refine Contract.sat_perform fun s₁ _ hinv r s₂ hexec => ?_
  cases hexec with
  | quiet _ _ hquiet => cases hquiet
  | fails _ e => exact ⟨hinv, contract.guar_refl i s₁, fun _ _ _ => by simp⟩
  | breaks _ e content hop => cases hop
  | uuid4 u hunused =>
      have hstep := uuid4_step s₁ i hinv u hunused _ rfl
      refine ⟨hstep.1, hstep.2, fun s₃ hrely _ v hv => ?_⟩
      obtain rfl := Except.ok.inj hv
      refine Drawn.stable _ s₃ hrely ⟨Function.update_self _ _ _, fun place hdir hbears => ?_⟩
      by_contra hsome
      exact hinv.named u place hdir hbears hsome hunused

theorem sat_claim (source : PyStr) (u : UuidHex) {s : Shared ι} (h : Drawn i u s) :
    contract.Sat i (fun s' r => r = .ok () → Owns i (claimName cfg source u) s')
      (perform (.rename ⟨.pending, source⟩ ⟨.processing, claimName cfg source u⟩)) s := by
  have hbears := bears_claimName cfg source u
  refine Contract.sat_perform fun s₁ hrely hinv r s₂ hexec => ?_
  obtain ⟨hu, hnone⟩ := h.stable s s₁ hrely
  cases hexec with
  | quiet _ _ hquiet => cases hquiet
  | fails _ e => exact ⟨hinv, contract.guar_refl i s₁, fun _ _ _ => by simp⟩
  | breaks _ e content hop => cases hop
  | rename _ _ d hsource =>
      have hfree := hnone ⟨.processing, claimName cfg source u⟩ (by simp) hbears
      refine ⟨move_inv hinv u hu hsource (by simp) hbears hfree,
        move_guards u hu hsource (.inl rfl) (by simp) hbears hfree, fun s₃ hrely' _ _ => Owns.stable _ s₃ hrely' ?_⟩
      refine ⟨⟨u, hu, hbears, ?_, ?_⟩, ⟨i, d, claimName cfg source u⟩, List.mem_cons_self, rfl, rfl⟩
      · rw [Shared.queue_move, if_neg (by simp), if_neg (by simp)]
        exact hnone _ (by simp) hbears
      · rw [Shared.queue_move, if_neg (by simp), if_neg (by simp)]
        exact hnone _ (by simp) hbears

theorem sat_claimFrom (names : List PyStr) (s : Shared ι) :
    contract.Sat i (fun s' r => ∀ name, r = .ok (some name) → Owns i name s') (claimFrom cfg names) s := by
  induction names generalizing s with
  | nil => exact fun s' _ _ => by simp
  | cons source rest ih =>
      refine (sat_uuid4 s).bind ?_ fun s' e _ _ => by simp
      intro s u _ hu
      refine (sat_claim cfg source u (hu u rfl)).attempt.bind ?_ fun s' e _ _ => by simp
      rintro s outcome _ ⟨_, houtcome, howns⟩
      obtain rfl := Except.ok.inj houtcome
      cases outcome with
      | ok _ =>
          intro s' hrely _ name hname
          obtain rfl := Option.some.inj (Except.ok.inj hname)
          exact (howns rfl).stable s s' hrely
      | error e =>
          dsimp only
          split
          · exact ih s
          · exact fun s' _ _ => by simp

theorem sat_claimOne (s : Shared ι) :
    contract.Sat i (fun s' (r : Except PyExc TaskOp.claimOne.Res) => ∀ name, r = .ok (some name) → Owns i name s')
      (body cfg .claimOne) s := by
  refine Contract.Sat.bind (M := fun _ _ => True) ?_ (fun s' names _ _ => sat_claimFrom cfg _ s')
    fun s' e _ _ => by simp
  exact sat_quiet (P := fun _ : Shared ι => True) (Prog.only_perform .listPending rfl) (fun _ _ _ h => h) trivial

-- A claimed file is moved on under its name.
theorem sat_moveOn (dir : Dir) (hdir : dir = .done ∨ dir = .failed) {name : PyStr} {s : Shared ι} (h : Owns i name s) :
    contract.Sat i (fun s' r => (∃ e, r = .error e) → Owns i name s')
      (perform (.rename ⟨.processing, name⟩ ⟨dir, name⟩)) s := by
  refine Contract.sat_perform fun s₁ hrely hinv r s₂ hexec => ?_
  have h' := h.stable s s₁ hrely
  obtain ⟨⟨u, hu, hbears, hdone, hfailed⟩, -⟩ := id h'
  have htarget : dir ≠ .pending ∧ s₁.queue ⟨dir, name⟩ = none := by
    rcases hdir with rfl | rfl
    · exact ⟨by simp, hdone⟩
    · exact ⟨by simp, hfailed⟩
  cases hexec with
  | quiet _ _ hquiet => cases hquiet
  | fails _ e => exact ⟨hinv, contract.guar_refl i s₁, fun s₃ hrely' _ _ => h'.stable s₁ s₃ hrely'⟩
  | breaks _ e content hop => cases hop
  | rename _ _ d hsource =>
      exact ⟨move_inv hinv u hu hsource htarget.1 hbears htarget.2,
        move_guards u hu hsource (.inr hbears) htarget.1 hbears htarget.2, fun _ _ _ => by simp⟩

end Claim

section Calls

variable (cfg : Config)

theorem executeTask_quiet (task : Json) (taskId : PyStr) :
    (executeTask cfg task taskId).Only fun op => op.quiet = true := by
  have hquiet : ∀ op : WorkerOp, op.quiet = true → (perform op).Only fun op => op.quiet = true :=
    fun op hop => Prog.only_perform op hop
  refine (Prog.only_ofExcept _).bind fun envelope => ?_
  refine (hquiet .utcNow rfl).bind fun now => ?_
  split
  · exact (hquiet (.countFiles .pending) rfl).bind fun _ => (hquiet (.countFiles .processing) rfl).bind fun _ =>
      (hquiet .uptime rfl).bind fun _ => trivial
  · exact (Prog.only_ofExcept _).bind fun relativePath => (hquiet (.resolveWorkspace relativePath) rfl).bind fun path =>
      (hquiet (.readWorkspace path) rfl).bind fun _ => (Prog.only_ofExcept _).bind fun _ => trivial

-- The calls that do not touch the queue and the results.
def TaskOp.harmless : TaskOp → Bool
  | .appendAudit _ | .executeTask _ _ => true
  | .sys op => op.quiet
  | _ => false

-- A call after which the name is still the worker's.
theorem sat_marked {c : TaskOp} (hc : ∀ taskId payload, c ≠ .atomicResult taskId payload) {name : PyStr}
    {s : Shared ι} (h : contract.Sat i (fun s' _ => Owns i name s') (body cfg c) s) :
    markedContract.Sat i (fun s' _ => Owns i name s') (Prog.marked (body cfg) c) s := by
  refine h.marked (fun s₁ s₂ _ hrely _ => Owns.stable s₁ s₂ hrely) fun s₁ r hinv h' => ?_
  rw [note_of_ne s₁ c r hc]
  exact ⟨hinv, contract.guar_refl i s₁, fun s₂ hrely _ => h'.stable s₁ s₂ hrely⟩

theorem sat_harmless (c : TaskOp) (hc : c.harmless = true) {name : PyStr} {s : Shared ι} (h : Owns i name s) :
    markedContract.Sat i (fun s' _ => Owns i name s') (Prog.marked (body cfg) c) s := by
  cases c with
  | appendAudit event => exact sat_marked cfg (by simp) (sat_appendAudit cfg event (owns_lockFree name) h)
  | executeTask task taskId =>
      exact sat_marked cfg (by simp) (sat_quiet (executeTask_quiet cfg task taskId) Owns.stable h)
  | sys op => exact sat_marked cfg (by simp) (sat_quiet (Prog.only_perform op hc) Owns.stable h)
  | _ => cases hc

-- A part of `process_one` that does not touch the queue and the results.
theorem sat_expand {α : Type} {p : Calls α} (hp : p.Only fun c => c.harmless = true) {name : PyStr} {s : Shared ι}
    (h : Owns i name s) :
    markedContract.Sat i (fun s' _ => Owns i name s') (p.expand (Prog.marked (body cfg))) s := by
  induction p generalizing s with
  | ret a => exact fun s' hrely _ => h.stable s s' hrely
  | raise e => exact fun s' hrely _ => h.stable s s' hrely
  | call c k ih =>
      refine (sat_harmless cfg c hp.1 h).attempt.bind ?_ ?_
      · rintro s' r _ ⟨outcome, houtcome, h'⟩
        exact ih r (hp.2 r) h'
      · rintro s' e _ ⟨outcome, houtcome, -⟩
        cases houtcome

theorem prepare_harmless (claimed : PyStr) : (prepare cfg claimed).Only fun c => c.harmless = true := by
  have hcall : ∀ c : TaskOp, c.harmless = true → (call c).Only fun c => c.harmless = true :=
    fun c hc => Prog.only_perform c hc
  refine (hcall (.sys .utcNow) rfl).bind fun now => (hcall (.appendAudit _) rfl).bind fun _ => ?_
  refine (hcall (.sys (.statClaimed claimed)) rfl).bind fun size => ?_
  split
  · trivial
  refine (hcall (.sys (.readClaimed claimed)) rfl).bind fun content => ?_
  refine (Prog.only_ofExcept _).bind fun task => (Prog.only_ofExcept _).bind fun envelope => ?_
  exact (hcall (.sys .utcNow) rfl).bind fun now => (hcall (.appendAudit _) rfl).bind fun _ =>
    hcall (.executeTask task _) rfl

-- The return of `atomic_result` is noted when the worker has made and closed the file.
theorem sat_resultCall (payload : Fields) {name : PyStr} {s : Shared ι} (h : Owns i name s) :
    markedContract.Sat i (fun s' _ => Owns i name s')
      (Prog.marked (body cfg) (.atomicResult (taskIdOf name) payload)) s := by
  have hkeeps : ∀ (op : WorkerOp) (s : Shared ι) (r : Except PyExc op.Res) (s' : Shared ι), op.keepsQueue = true →
      s.Inv → Exec i s op r s' → Owns i name s → Owns i name s' := by
    intro op s r s' hop _ hexec h
    obtain ⟨hqueue, hdrawn, hclaims⟩ := keepsQueue_step op hop s r s' hexec
    exact h.of_queue hqueue hdrawn hclaims
  have hsat := (sat_atomicResult cfg payload h).frame (P := Owns i name) Owns.stable hkeeps
    (atomicResult_keepsQueue cfg (taskIdOf name) payload) h
  refine hsat.marked ?_ fun s₁ r hinv ⟨h', hready⟩ => ?_
  · exact fun s₁ s₂ r hrely _ ⟨h', hready⟩ => ⟨h'.stable s₁ s₂ hrely, fun hr => (hready hr).stable s₁ s₂ hrely⟩
  · cases r with
    | error e => exact ⟨hinv, contract.guar_refl i s₁, fun s₂ hrely _ => h'.stable s₁ s₂ hrely⟩
    | ok u =>
        obtain ⟨⟨n, hn, hmade, -⟩, hclosed⟩ := hready rfl
        have hstep := returned_step s₁ i hinv _ n hn hmade hclosed _ rfl
        exact ⟨hstep.1, hstep.2, fun s₂ hrely _ => Owns.stable _ s₂ hrely (h'.of_queue rfl rfl rfl)⟩

theorem sat_moveOnCall (dir : Dir) (hdir : dir = .done ∨ dir = .failed) {name : PyStr} {s : Shared ι}
    (h : Owns i name s) :
    markedContract.Sat i (fun s' r => (∃ e, r = .error e) → Owns i name s')
      (Prog.marked (body cfg) (.sys (.rename ⟨.processing, name⟩ ⟨dir, name⟩))) s := by
  have hsat : contract.Sat i (fun s' r => (∃ e, r = .error e) → Owns i name s')
      (body cfg (.sys (.rename ⟨.processing, name⟩ ⟨dir, name⟩))) s := sat_moveOn dir hdir h
  have hstable : ∀ (s₁ s₂ : Shared ι) (r : Except PyExc Unit), contract.Rely i s₁ s₂ →
      ((∃ e, r = .error e) → Owns i name s₁) → (∃ e, r = .error e) → Owns i name s₂ :=
    fun s₁ s₂ _ hrely h he => (h he).stable s₁ s₂ hrely
  exact hsat.marked (fun s₁ s₂ r hrely _ => hstable s₁ s₂ r hrely) fun s₁ r hinv h' =>
    ⟨hinv, contract.guar_refl i s₁, fun s₂ hrely _ => hstable s₁ s₂ r hrely h'⟩

end Calls

section ProcessOne

variable (cfg : Config)

theorem sat_deliver (result : TaskResult) {claimed : PyStr} {s : Shared ι} (h : Owns i claimed s) :
    markedContract.Sat i (fun s' r => (∃ e, r = .error e) → Owns i claimed s')
      ((deliver claimed result).expand (Prog.marked (body cfg))) s := by
  simp only [deliver, Prog.expand_bind, Prog.expand_perform]
  refine (sat_resultCall cfg _ h).bind ?_ fun s' e _ h' _ => h'
  intro s _ _ h
  refine (sat_harmless cfg (.sys .utcNow) rfl h).bind ?_ fun s' e _ h' _ => h'
  intro s now _ h
  refine (sat_harmless cfg (.appendAudit _) rfl h).bind ?_ fun s' e _ h' _ => h'
  exact fun s _ _ h => sat_moveOnCall cfg .done (.inl rfl) h

theorem sat_complete {claimed : PyStr} {s : Shared ι} (h : Owns i claimed s) :
    markedContract.Sat i (fun s' r => (∃ e, r = .error e) → Owns i claimed s')
      ((complete cfg claimed).expand (Prog.marked (body cfg))) s := by
  simp only [complete, Prog.expand_bind]
  refine (sat_expand cfg (prepare_harmless cfg claimed) h).bind ?_ fun s' e _ h' _ => h'
  exact fun s result _ h => sat_deliver cfg result h

theorem sat_moveToFailed {claimed : PyStr} {s : Shared ι} (h : Owns i claimed s) :
    markedContract.Sat i (fun _ _ => True) ((moveToFailed claimed).expand (Prog.marked (body cfg))) s := by
  simp only [moveToFailed, Prog.expand_catching, Prog.expand_perform]
  refine (sat_moveOnCall cfg .failed (.inr rfl) h).catching (fun _ _ _ _ => trivial) ?_
  intro s' e _ _
  split
  · exact fun _ _ _ => trivial
  · exact fun _ _ _ => trivial

theorem sat_recordFailure (e : PyExc) {claimed : PyStr} {s : Shared ι} (h : Owns i claimed s) :
    markedContract.Sat i (fun _ _ => True) ((recordFailure claimed e).expand (Prog.marked (body cfg))) s := by
  simp only [recordFailure, Prog.expand_bind, Prog.expand_perform, Prog.expand_catching, Prog.expand_finishing]
  refine (sat_harmless cfg (.sys .utcNow) rfl h).bind ?_ fun _ _ _ _ => trivial
  intro s now _ h
  refine Contract.Sat.bind (M := fun s' _ => Owns i claimed s') ?_ ?_ fun _ _ _ _ => trivial
  · refine (sat_resultCall cfg _ h).catching (fun s' _ _ h' => h') ?_
    exact fun s' _ _ h' s'' hrely _ => h'.stable s' s'' hrely
  · intro s _ _ h
    refine Contract.Sat.finishing (M := fun s' _ => Owns i claimed s') ?_ ?_ fun _ _ _ _ _ _ => trivial
    · refine (sat_harmless cfg (.sys .utcNow) rfl h).bind ?_ fun s' e _ h' => h'
      exact fun s now _ h => sat_harmless cfg (.appendAudit _) rfl h
    · refine fun s' r _ h' => (sat_moveToFailed cfg h').mono fun s'' r' _ _ => ?_
      cases r' <;> trivial

theorem sat_processOne (s : Shared ι) :
    markedContract.Sat i (fun _ _ => True) ((processOne cfg).expand (Prog.marked (body cfg))) s := by
  simp only [processOne, Prog.expand_bind, Prog.expand_perform]
  have hstable : ∀ (s₁ s₂ : Shared ι) (r : Except PyExc (Option PyStr)), contract.Rely i s₁ s₂ →
      (∀ name, r = .ok (some name) → Owns i name s₁) → ∀ name, r = .ok (some name) → Owns i name s₂ :=
    fun s₁ s₂ _ hrely h name hname => (h name hname).stable s₁ s₂ hrely
  have hclaim : markedContract.Sat i (fun s' r => ∀ name, r = .ok (some name) → Owns i name s')
      (Prog.marked (body cfg) .claimOne) s := by
    refine (sat_claimOne cfg s).marked ?_ fun s₁ r hinv h => ?_
    · exact fun s₁ s₂ r hrely _ => hstable s₁ s₂ r hrely
    · exact ⟨hinv, contract.guar_refl i s₁, fun s₂ hrely _ => hstable s₁ s₂ r hrely h⟩
  refine hclaim.bind ?_ fun _ _ _ _ => trivial
  intro s claimed _ h
  cases claimed with
  | none => exact fun _ _ _ => trivial
  | some claimed =>
      simp only [Prog.expand_bind, Prog.expand_catching]
      refine Contract.Sat.bind (M := fun _ _ => True) ?_ (fun _ _ _ _ => fun _ _ _ => trivial) fun _ _ _ _ => trivial
      refine (sat_complete cfg (h claimed rfl)).catching (fun _ _ _ _ => trivial) ?_
      exact fun s e _ h => sat_recordFailure cfg e (h ⟨e, rfl⟩)

theorem sat_work (rounds : Nat) (s : Shared ι) :
    markedContract.Sat i (fun _ _ => True) ((work cfg rounds).expand (Prog.marked (body cfg))) s := by
  induction rounds generalizing s with
  | zero => exact fun _ _ _ => trivial
  | succ rounds ih =>
      simp only [work, Prog.expand_bind, Prog.expand_attempt]
      refine (sat_processOne cfg s).attempt.bind (fun s' _ _ _ => ih s') fun _ _ _ _ => trivial

end ProcessOne

section Runs

theorem start_good (cfg : ι → Config) (rounds : ι → Nat) (layout : Layout) :
    markedContract.Good (fun _ _ _ => True) (start cfg rounds layout) :=
  ⟨start_inv layout, fun i => sat_work (cfg i) (rounds i) layout.shared⟩

theorem step_lasts (p p' : Pool ι (Shared ι) MarkedOp (MarkedRes WorkerOp.Res) PyExc Unit)
    (hgood : markedContract.Good (fun _ _ _ => True) p) (hstep : markedSystem.Step p p') :
    Lasts p.shared p'.shared := by
  cases hstep with
  | call i op k r s hcall hexec => exact (hgood.guar i op k r s hcall hexec).1
  | env s henv =>
      obtain ⟨name, d, hfree, hnew⟩ := henv
      exact submit_lasts hfree hnew

theorem reach_lasts (p p' : Pool ι (Shared ι) MarkedOp (MarkedRes WorkerOp.Res) PyExc Unit)
    (hgood : markedContract.Good (fun _ _ _ => True) p) (hreach : markedSystem.Reach p p') :
    Lasts p.shared p'.shared := by
  induction hreach with
  | refl => exact .refl _
  | tail hreach hstep ih => exact ih.trans (step_lasts _ _ (hgood.reach hreach) hstep)

-- Every file is claimed once at most. A document that was pending is at one place
-- of the queue ever after, and a result that was returned stays as it is.
theorem claiming_exactly_once (cfg : ι → Config) (rounds : ι → Nat) (layout : Layout)
    (p p' : Pool ι (Shared ι) MarkedOp (MarkedRes WorkerOp.Res) PyExc Unit)
    (hreach : markedSystem.Reach (start cfg rounds layout) p) (hlater : markedSystem.Reach p p') :
    (∀ d, (p.shared.claims.filter fun c => c.file = d).length ≤ 1) ∧
      (∀ name d, p.shared.queue ⟨.pending, name⟩ = some d → ∃! place, p'.shared.queue place = some d) ∧
      ∀ taskId ∈ p.shared.returned, ∃ n file, p.shared.results taskId = some n ∧ p.shared.files n = some file ∧
        p'.shared.results taskId = some n ∧ p'.shared.files n = some file := by
  have hgood := (start_good cfg rounds layout).reach hreach
  have hgood' := hgood.reach hlater
  have hlasts := reach_lasts p p' hgood hlater
  refine ⟨fun d => ?_, fun name d hd => ?_, fun taskId htask => ?_⟩
  · have hcount := List.nodup_iff_count_le_one.mp hgood.inv.once d
    rwa [List.count_eq_countP, List.countP_map, List.countP_eq_length_filter] at hcount
  · obtain ⟨place, hplace⟩ := hlasts.documents _ d hd
    exact ⟨place, hplace, fun other hother => hgood'.inv.single other place d hother hplace⟩
  · obtain ⟨n, hn, -⟩ := hgood.inv.published taskId htask
    obtain ⟨file, hfile⟩ := hgood.inv.present taskId n hn
    obtain ⟨-, hresults, hfiles⟩ := hlasts.published taskId htask
    exact ⟨n, file, hn, hfile, hresults.trans hn, (hfiles n hn).trans hfile⟩

section Contention

-- One document, and no results.
def sampleLayout : Layout where
  queue place := if place = ⟨.pending, py "job.json"⟩ then some 1 else none
  single p q d hp hq := by
    simp only [Option.ite_none_right_eq_some] at hp hq
    rw [hp.1, hq.1]
  results _ := none
  files _ := none
  distinct _ _ _ h := by cases h
  present _ _ h := by cases h
  earlier _ := false
  named u place hdir _ h := by
    refine absurd (if_neg fun heq => ?_) h
    rw [heq] at hdir
    exact hdir rfl

def otherUuid : UuidHex := ⟨List.replicate 32 (cp '1'), rfl⟩

def sampleSupply : Supply := ⟨[py "job.json"], [sampleUuid, otherUuid], [1000, 1001]⟩

def sampleWorld : World := ⟨fun _ => sampleContent, fun path => .ok path, fun _ => .error .fileNotFound⟩

def twoWorkers : Pool Bool (Shared Bool) MarkedOp (MarkedRes WorkerOp.Res) PyExc Unit :=
  start (fun _ => sampleConfig) (fun _ => 1) sampleLayout

-- Both workers list the document before one of them claims it.
def contendedTurns : List Bool :=
  [false, false, true, true, true, false] ++ List.replicate 70 true ++ List.replicate 10 false

def contendedRun : Option (Pool Bool (Shared Bool) MarkedOp (MarkedRes WorkerOp.Res) PyExc Unit) :=
  (driver sampleWorld sampleSupply).play contendedTurns twoWorkers

def doneCopy : Place := ⟨.done, claimName sampleConfig (py "job.json") otherUuid⟩

theorem contendedRun_returns : (contendedRun.any fun p =>
    p.shared.queue doneCopy == some 1 && p.shared.returned == [py "job"]) = true := by decide +kernel

-- One worker has claimed the document and moved it to `done`, and its result stands.
theorem claiming_exactly_once_contended : ∃ p, contendedRun = some p ∧
    (p.shared.claims.filter fun c => c.file = 1).length ≤ 1 ∧
      (∀ place, p.shared.queue place = some 1 → place = doneCopy) ∧
      ∃ n file, p.shared.results (py "job") = some n ∧ p.shared.files n = some file := by
  obtain ⟨p, hrun, hp⟩ := (Option.any_eq_true _ _).mp contendedRun_returns
  simp only [Bool.and_eq_true, beq_iff_eq] at hp
  have hreach := (driver sampleWorld sampleSupply).play_reach contendedTurns twoWorkers p hrun
  obtain ⟨-, honce, -⟩ :=
    claiming_exactly_once (fun _ => sampleConfig) (fun _ => 1) sampleLayout twoWorkers p .refl hreach
  obtain ⟨hclaims, -, hreturned⟩ :=
    claiming_exactly_once (fun _ => sampleConfig) (fun _ => 1) sampleLayout p p hreach .refl
  obtain ⟨place, -, hunique⟩ := honce (py "job.json") 1 rfl
  obtain ⟨n, file, hn, hfile, -⟩ := hreturned (py "job") (hp.2 ▸ List.mem_singleton_self _)
  refine ⟨p, hrun, hclaims 1, fun other hother => ?_, n, file, hn, hfile⟩
  rw [hunique other hother, hunique doneCopy hp.1]

end Contention

end Runs

end V91Core.Worker
