import V91Core.Worker.Sharing

namespace V91Core.Worker

open V91Core.Python V91Core.Effect V91Core.Audit

variable {ι : Type} [DecidableEq ι] (w : World) (i : ι)

-- What worker `i` relies on where nothing fails for it.
abbrev sharedContract : Contract (sharing w i) := contract.sub (System.limit_sub _)

abbrev keptContract : Contract (sharedContract w i).kept := (sharedContract w i).within

abbrev keptMarked : Contract ((sharedContract w i).marked note).kept := ((sharedContract w i).marked note).within

abbrev keptAudit : Contract ((sharedContract w i).kept.comap WorkerOp.audit fun _ b => b) :=
  (keptContract w i).comap _ _

variable {w i}

section Operations

variable {P : Shared ι → Prop} (hstable : ∀ s s', contract.Rely i s s' → P s → P s')

include hstable

theorem sat_smooth (op : WorkerOp) (hop : op.quiet = true) {M : Except PyExc op.Res → Prop}
    (hM : ∀ s r, P s → Smooth w s op r → M r) {s : Shared ι} (h : P s) :
    (keptContract w i).Sat i (fun s' r => P s' ∧ M r) (perform op) s := by
  refine Contract.sat_within_perform fun s₁ hrely _ r s₂ hexec _ _ s₃ hrely' _ => ?_
  obtain rfl := quiet_step op hop s₁ r s₂ hexec.1
  have h₁ := hstable s s₂ hrely h
  exact ⟨hstable _ _ hrely' h₁, hM s₂ r h₁ (hexec.2 rfl)⟩

omit [DecidableEq ι] hstable in
theorem smooth_audit (op : AuditOp) (hop : (WorkerOp.audit op).quiet = true) (s : Shared ι) (r : Except PyExc op.Res)
    (h : Smooth w s (.audit op) r) : ∃ b, r = .ok b := by
  cases op with
  | createLock => cases hop
  | unlinkLock => cases hop
  | _ => exact h

theorem sat_audit_smooth (op : AuditOp) (hop : (WorkerOp.audit op).quiet = true) {s : Shared ι} (h : P s) :
    (keptAudit w i).Sat i (fun s' r => P s' ∧ ∃ b, r = .ok b ∧ True) (Audit.perform op) s := by
  refine Contract.sat_perform fun s₁ hrely _ r s₂ hexec => ?_
  obtain ⟨r', rfl, ⟨hexec, hsmooth⟩, hinv, hguar⟩ := hexec
  obtain rfl := quiet_step _ hop s₁ r' s₂ hexec
  have h₁ := hstable s s₂ hrely h
  obtain ⟨b, hb⟩ := smooth_audit op hop s₂ r' (hsmooth rfl)
  rw [hb]
  exact ⟨hinv, hguar, fun s₃ hrely' _ => ⟨hstable _ _ hrely' h₁, b, rfl, trivial⟩⟩

end Operations

section Append

theorem not_refused_stable (s s' : Shared ι) (hrely : contract.Rely i s s') (h : i ∉ s.refused) : i ∉ s'.refused :=
  fun hmem => h (hrely.2.refused hmem)

variable {P : Shared ι → Prop} (hP : LockFree i P)

include hP

-- The lock is free or else the worker is refused.
theorem sat_acquire (lockPath : PyStr) {s : Shared ι} (h : P s) (hfree : i ∉ s.refused) :
    (keptAudit w i).Sat i (fun s' r => P s' ∧ ((r = .ok () ∧ s'.lock = some i ∧ i ∉ s'.refused) ∨
      (∃ e, r = .error e) ∧ i ∈ s'.refused)) (acquireLock lockPath) s := by
  refine Contract.Sat.catching (M := fun s' (r : Except PyExc Unit) => P s' ∧
    ((r = .ok () ∧ s'.lock = some i ∧ i ∉ s'.refused) ∨ (∃ e, r = .error e) ∧ i ∈ s'.refused)) ?_ (fun s' _ _ h => h) ?_
  · refine Contract.sat_perform fun s₁ hrely _ r s₂ hexec => ?_
    obtain ⟨r', rfl, ⟨hexec, hsmooth⟩, hinv, hguar⟩ := hexec
    have h₁ := hP.stable s s₁ hrely h
    have hfree₁ := not_refused_stable s s₁ hrely hfree
    refine ⟨hinv, hguar, fun s₃ hrely' _ => ?_⟩
    cases hexec with
    | quiet _ _ hquiet => cases hquiet
    | fails _ e hunlocked => cases hsmooth rfl (hunlocked rfl)
    | breaks _ e content hop => cases hop
    | createLock hlock =>
        have h₂ : P { s₁ with lock := some i } := hP.lock s₁ (some i) h₁
        exact ⟨hP.stable _ s₃ hrely' h₂, .inl ⟨rfl, hrely'.2.lock rfl, not_refused_stable _ s₃ hrely' hfree₁⟩⟩
    | refused j hlock e =>
        have h₂ : P { s₁ with refused := i :: s₁.refused } := hP.refused s₁ _ h₁
        exact ⟨hP.stable _ s₃ hrely' h₂, .inr ⟨⟨e, rfl⟩, hrely'.1.refused i List.mem_cons_self⟩⟩
  · rintro s' e _ ⟨h', ⟨he, -⟩ | ⟨-, hrefused⟩⟩
    · cases he
    · split
      · exact fun s'' hrely _ => ⟨hP.stable s' s'' hrely h', .inr ⟨⟨_, rfl⟩, hrely.1.refused i hrefused⟩⟩
      · exact fun s'' hrely _ => ⟨hP.stable s' s'' hrely h', .inr ⟨⟨_, rfl⟩, hrely.1.refused i hrefused⟩⟩

theorem sat_release {s : Shared ι} (h : P s) (hlock : s.lock = some i) (hfree : i ∉ s.refused) :
    (keptAudit w i).Sat i (fun s' r => (P s' ∧ i ∉ s'.refused) ∧ ∃ b, r = .ok b ∧ True) releaseLock s := by
  have hall : ∀ s s', contract.Rely i s s' → P s ∧ s.lock = some i ∧ i ∉ s.refused → P s' ∧ s'.lock = some i ∧
      i ∉ s'.refused :=
    fun s s' hrely h => ⟨hP.stable s s' hrely h.1, hrely.2.lock h.2.1, not_refused_stable s s' hrely h.2.2⟩
  refine (sat_audit_smooth hall .closeLock rfl ⟨h, hlock, hfree⟩).bind_ok ?_
  rintro s _ _ h -
  refine Contract.Sat.catching
    (M := fun s' (r : Except PyExc Unit) => (P s' ∧ i ∉ s'.refused) ∧ ∃ b, r = .ok b ∧ True) ?_ (fun s' _ _ h => h) ?_
  · refine Contract.sat_perform fun s₁ hrely _ r s₂ hexec => ?_
    obtain ⟨r', rfl, ⟨hexec, hsmooth⟩, hinv, hguar⟩ := hexec
    obtain ⟨h₁, hlock₁, hfree₁⟩ := hall s s₁ hrely h
    refine ⟨hinv, hguar, fun s₃ hrely' _ => ?_⟩
    have hok : r' = .ok () := hsmooth rfl (by simp [hlock₁])
    subst hok
    cases hexec with
    | quiet _ _ hquiet => cases hquiet
    | unlinkLock j hj =>
        have h₂ : P { s₁ with lock := none } := hP.lock s₁ none h₁
        exact ⟨⟨hP.stable _ s₃ hrely' h₂, not_refused_stable _ s₃ hrely' hfree₁⟩, (), rfl, trivial⟩
  · rintro s' e _ ⟨-, b, hb, -⟩
    cases hb

omit hP in
theorem sat_lockedAppend (hstable : ∀ s s', contract.Rely i s s' → P s → P s') (rt : Runtime) (pid : Nat) (event : Json)
    {s : Shared ι} (h : P s) :
    (keptAudit w i).Sat i (fun s' r => P s' ∧ ((r = .ok () ∧ ∃ line, eventLine rt event = .ok line) ∨
      (∃ e, r = .error e) ∧ ¬∃ line, eventLine rt event = .ok line)) (lockedAppend rt pid event) s := by
  have hop := fun op hop {s} h => sat_audit_smooth (w := w) hstable op hop (s := s) h
  refine (hop .utcNow rfl h).bind_ok fun s now _ h _ => ?_
  obtain ⟨text, htext⟩ := encodeUtf8_of_ascii _ (isAscii_lockText pid now)
  rw [htext]
  refine (hop (.writeLock text) rfl h).bind_ok fun s _ _ h _ => (hop .syncLock rfl h).bind_ok fun s _ _ h _ => ?_
  refine (hop .openLog rfl h).bind_ok fun s _ _ h _ => ?_
  refine Contract.Sat.finishing (M := fun s' r => P s' ∧ ((r = .ok () ∧ ∃ line, eventLine rt event = .ok line) ∨
    (∃ e, r = .error e) ∧ ¬∃ line, eventLine rt event = .ok line)) ?_ ?_ ?_
  · cases hline : eventLine rt event with
    | error e => exact fun s' hrely _ => ⟨hstable s s' hrely h, .inr ⟨⟨e, rfl⟩, by simp⟩⟩
    | ok line =>
        refine (hop (.writeLine line) rfl h).bind_ok fun s _ _ h _ => (hop .syncLog rfl h).mono ?_
        rintro s' _ _ ⟨h', _, rfl, -⟩
        exact ⟨h', .inl ⟨rfl, line, rfl⟩⟩
  · rintro s' r _ ⟨h', hr⟩
    refine (hop .closeLog rfl h').mono ?_
    rintro s'' _ _ ⟨h'', _, rfl, -⟩
    exact ⟨h'', hr⟩
  · exact fun s' s'' r hrely _ ⟨h', hr⟩ => ⟨hstable s' s'' hrely h', hr⟩

-- An event that can be serialised is appended or the worker is refused.
theorem sat_append (cfg : Config) (event : Fields) {s : Shared ι} (h : P s) (hfree : i ∉ s.refused) :
    (keptContract w i).Sat i (fun s' (r : Except PyExc (TaskOp.appendAudit event).Res) => P s' ∧
      ((r = .ok () ∧ i ∉ s'.refused ∧ ∃ line, eventLine cfg.rt (.obj event) = .ok line) ∨
        (∃ e, r = .error e) ∧ (i ∈ s'.refused ∨ ¬∃ line, eventLine cfg.rt (.obj event) = .ok line)))
      (body cfg (.appendAudit event)) s := by
  refine Contract.Sat.comap (C := keptContract w i) ?_
  have hboth : ∀ s s', contract.Rely i s s' → P s ∧ i ∉ s.refused → P s' ∧ i ∉ s'.refused :=
    fun s s' hrely h => ⟨hP.stable s s' hrely h.1, not_refused_stable s s' hrely h.2⟩
  refine (sat_audit_smooth hboth .makeParent rfl ⟨h, hfree⟩).bind_ok ?_
  rintro s _ _ ⟨h, hfree⟩ -
  refine (sat_acquire hP cfg.auditLockPath h hfree).bind ?_ ?_
  · rintro s _ _ ⟨h, ⟨-, hlock, hfree⟩ | ⟨⟨e, he⟩, -⟩⟩
    · have hall : ∀ s s', contract.Rely i s s' → P s ∧ s.lock = some i ∧ i ∉ s.refused →
          P s' ∧ s'.lock = some i ∧ i ∉ s'.refused :=
        fun s s' hrely h => ⟨hP.stable s s' hrely h.1, hrely.2.lock h.2.1, not_refused_stable s s' hrely h.2.2⟩
      refine Contract.Sat.finishing (sat_lockedAppend hall cfg.rt cfg.pid (.obj event) ⟨h, hlock, hfree⟩) ?_ ?_
      · rintro s' r _ ⟨⟨h', hlock', hfree'⟩, hr⟩
        refine (sat_release hP h' hlock' hfree').mono ?_
        rintro s'' _ _ ⟨⟨h'', hfree''⟩, _, rfl, -⟩
        refine ⟨h'', ?_⟩
        rcases hr with ⟨rfl, hline⟩ | ⟨he, hline⟩
        · exact .inl ⟨rfl, hfree'', hline⟩
        · exact .inr ⟨he, .inr hline⟩
      · rintro s' s'' r hrely _ ⟨h', hr⟩
        refine ⟨hP.stable s' s'' hrely h', ?_⟩
        rcases hr with ⟨rfl, hfree', hline⟩ | ⟨he, hrefused | hline⟩
        · exact .inl ⟨rfl, not_refused_stable s' s'' hrely hfree', hline⟩
        · exact .inr ⟨he, .inl (hrely.1.refused i hrefused)⟩
        · exact .inr ⟨he, .inr hline⟩
    · cases he
  · rintro s' e _ ⟨h', ⟨he, -⟩ | ⟨-, hrefused⟩⟩
    · cases he
    · exact ⟨h', .inr ⟨⟨e, rfl⟩, .inl hrefused⟩⟩

end Append

section Task

variable (w) (i) (cfg : Config) (layout : Layout) (d : Inode)

-- Another worker has claimed a file of the task.
def Taken (taskId : PyStr) (s : Shared ι) : Prop := ∃ c ∈ s.claims, c.worker ≠ i ∧ taskIdOf c.name = taskId

-- What keeps the worker from completing the task.
def Blocked (taskId : PyStr) (s : Shared ι) : Prop :=
  ¬Feasible w cfg layout taskId d ∨ i ∈ s.refused ∨ Taken i taskId s

-- The worker has the file there, under a name of its own.
def Has (dir : Dir) (name : PyStr) (s : Shared ι) : Prop :=
  (∃ u, s.drawn u = some i ∧ Bears u name) ∧ s.queue ⟨dir, name⟩ = some d

-- A result of the task has been made by another worker or has been there from the start.
def Fresh (taskId : PyStr) (s : Shared ι) : Prop :=
  (layout.results taskId = none ∧ (s.results taskId = none ∨ Taken i taskId s)) ∨
    layout.results taskId ≠ none ∧ ∃ n content, s.results taskId = some n ∧ s.files n = some ⟨none, content⟩

-- The result that the worker has made has this content.
def Written (taskId : PyStr) (content : Bytes) (s : Shared ι) : Prop :=
  ∃ n, s.results taskId = some n ∧ s.files n = some ⟨some i, content⟩

-- The worker has the result open.
def Filled (taskId : PyStr) (content : Bytes) (s : Shared ι) : Prop :=
  ∃ n, s.results taskId = some n ∧ s.files n = some ⟨some i, content⟩ ∧ s.handle i = some n

-- What the document and the workspace say about the result.
def Suitable (taskId : PyStr) (r : TaskResult) : Prop :=
  (w.content d).length ≤ maxTaskBytes ∧ ∃ task envelope, readTask cfg.rt (w.content d) = .ok task ∧
    validateTaskEnvelope task taskId = .ok envelope ∧
      ((envelope.action = .healthSnapshot ∧ ∀ g ∈ r.finding.fields, Json.Fits false cfg.rt.nesting g.2) ∨
        envelope.action ≠ .healthSnapshot ∧ inspect w cfg task envelope.action = .ok r.finding)

variable {w i cfg layout d}

omit [DecidableEq ι] in
theorem Taken.stable {taskId : PyStr} {s s' : Shared ι} (hlasts : Lasts s s') (h : Taken i taskId s) :
    Taken i taskId s' := by
  obtain ⟨c, hc, hrest⟩ := h
  exact ⟨c, hlasts.claims c hc, hrest⟩

omit [DecidableEq ι] in
theorem Blocked.stable {taskId : PyStr} {s s' : Shared ι} (hlasts : Lasts s s')
    (h : Blocked w i cfg layout d taskId s) : Blocked w i cfg layout d taskId s' := by
  rcases h with hnot | hrefused | htaken
  · exact .inl hnot
  · exact .inr (.inl (hlasts.refused i hrefused))
  · exact .inr (.inr (htaken.stable hlasts))

theorem Has.stable {dir : Dir} (hdir : dir ≠ .pending) {name : PyStr} (s s' : Shared ι) (hrely : contract.Rely i s s')
    (h : Has i d dir name s) : Has i d dir name s' := by
  obtain ⟨⟨u, hu, hbears⟩, hqueue⟩ := h
  obtain ⟨hu', hsame⟩ := hrely.2.drawn u hu
  exact ⟨⟨u, hu', hbears⟩, (hsame ⟨dir, name⟩ hdir hbears).trans hqueue⟩

theorem Fresh.stable {taskId : PyStr} (s s' : Shared ι) (hrely : contract.Rely i s s') (h : Fresh i layout taskId s) :
    Fresh i layout taskId s' := by
  rcases h with ⟨hlayout, hnone | htaken⟩ | ⟨hlayout, n, content, hn, hfile⟩
  · by_cases hresult : s'.results taskId = none
    · exact .inl ⟨hlayout, .inl hresult⟩
    · obtain ⟨n, hn⟩ := Option.ne_none_iff_exists'.mp hresult
      rcases hrely.2.appears taskId n hn with hold | hmade
      · rw [hnone] at hold
        cases hold
      · exact .inl ⟨hlayout, .inr hmade⟩
  · exact .inl ⟨hlayout, .inr (htaken.stable hrely.1)⟩
  · obtain ⟨hn', hfiles⟩ := hrely.1.outside taskId n content hn hfile
    exact .inr ⟨hlayout, n, content, hn', hfiles.trans hfile⟩

theorem Written.stable {taskId : PyStr} {content : Bytes} (s s' : Shared ι) (hrely : contract.Rely i s s')
    (h : Written i taskId content s) : Written i taskId content s' := by
  obtain ⟨n, hn, hfile⟩ := h
  obtain ⟨hn', hfiles, -⟩ := hrely.2.result taskId n hn ⟨content, hfile⟩
  exact ⟨n, hn', hfiles.trans hfile⟩

theorem Filled.stable {taskId : PyStr} {content : Bytes} (s s' : Shared ι) (hrely : contract.Rely i s s')
    (h : Filled i taskId content s) : Filled i taskId content s' := by
  obtain ⟨n, hn, hfile, hhandle⟩ := h
  obtain ⟨hn', hfiles, -⟩ := hrely.2.result taskId n hn ⟨content, hfile⟩
  exact ⟨n, hn', hfiles.trans hfile, hrely.2.handle.trans hhandle⟩

omit [DecidableEq ι] in
theorem feasible_iff {taskId : PyStr} {r : TaskResult} (h : Suitable w cfg d taskId r) :
    Feasible w cfg layout taskId d ↔
      (∀ g ∈ r.fields, Json.Fits false cfg.rt.nesting g.2) ∧ 1 < cfg.rt.nesting ∧ layout.results taskId = none := by
  obtain ⟨hsize, task, envelope, htask, hvalid, haction⟩ := h
  constructor
  · rintro ⟨-, hnesting, hfresh, task', envelope', htask', hvalid', hexecutable⟩
    rw [htask] at htask'
    obtain rfl := Except.ok.inj htask'
    rw [hvalid] at hvalid'
    obtain rfl := Except.ok.inj hvalid'
    refine ⟨fits_result r _ ?_, hnesting, hfresh⟩
    rcases haction with ⟨-, hfits⟩ | ⟨hne, hinspect⟩
    · exact hfits
    · obtain ⟨finding, hfinding, hfits⟩ := hexecutable hne
      rw [hinspect] at hfinding
      obtain rfl := Except.ok.inj hfinding
      exact hfits
  · rintro ⟨hfits, hnesting, hfresh⟩
    refine ⟨hsize, hnesting, hfresh, task, envelope, htask, hvalid, fun hne => ?_⟩
    rcases haction with ⟨hhealth, -⟩ | ⟨-, hinspect⟩
    · exact absurd hhealth hne
    · exact ⟨r.finding, hinspect, fun g hg => hfits g (List.mem_append_right _ hg)⟩

theorem line_of_feasible {taskId : PyStr} (h : Feasible w cfg layout taskId d) (event : Fields)
    (hlabels : ∀ f ∈ event, ∃ s, f.2 = .str s) : ∃ line, eventLine cfg.rt (.obj event) = .ok line :=
  (eventLine_isOk_iff cfg.rt _).mpr (fits_labels event _ (Nat.zero_lt_of_lt h.nesting) hlabels)

theorem sat_executeTask {P : Shared ι → Prop} (hstable : ∀ s s', contract.Rely i s s' → P s → P s') (task : Json)
    (taskId : PyStr) (envelope : Envelope) (hvalid : validateTaskEnvelope task taskId = .ok envelope) {s : Shared ι}
    (h : P s) :
    (keptContract w i).Sat i (fun s' (r : Except PyExc (TaskOp.executeTask task taskId).Res) => P s' ∧
      ((∃ result, r = .ok result ∧
        ((envelope.action = .healthSnapshot ∧ ∀ g ∈ result.finding.fields, Json.Fits false cfg.rt.nesting g.2) ∨
          envelope.action ≠ .healthSnapshot ∧ inspect w cfg task envelope.action = .ok result.finding)) ∨
        (∃ e, r = .error e) ∧ envelope.action ≠ .healthSnapshot ∧
          ∀ finding, inspect w cfg task envelope.action ≠ .ok finding)) (body cfg (.executeTask task taskId)) s := by
  have hreturns : ∀ op : WorkerOp, op.quiet = true → (∀ s r, Smooth w s op r → ∃ b, r = .ok b) → ∀ {s : Shared ι}, P s →
      (keptContract w i).Sat i (fun s' r => P s' ∧ ∃ b, r = .ok b ∧ True) (perform op) s := fun op hop hsmooth s h =>
    sat_smooth hstable op hop (fun s r _ hr => (hsmooth s r hr).imp fun b hb => ⟨hb, trivial⟩) h
  rw [body, executeTask, hvalid]
  refine (hreturns .utcNow rfl (fun _ _ h => h) h).bind_ok fun s now _ h _ => ?_
  by_cases hhealth : envelope.action = .healthSnapshot
  · rw [if_pos hhealth]
    refine (hreturns (.countFiles .pending) rfl (fun _ _ h => h) h).bind_ok fun s pending _ h _ => ?_
    refine (hreturns (.countFiles .processing) rfl (fun _ _ h => h) h).bind_ok fun s processing _ h _ => ?_
    refine (hreturns .uptime rfl (fun _ _ h => h) h).bind_ok fun s uptime _ h _ => fun s' hrely _ => ?_
    exact ⟨hstable s s' hrely h, .inl ⟨_, rfl, .inl ⟨hhealth, fits_health _ _ _ _ _⟩⟩⟩
  · rw [if_neg hhealth]
    have hfails : ∀ e, inspect w cfg task envelope.action = .error e → ∀ finding,
        inspect w cfg task envelope.action ≠ .ok finding := fun e he finding hfinding => by
      rw [he] at hfinding
      cases hfinding
    cases hpath : requirePath (taskGet "relative_path" task) with
    | error e =>
        refine fun s' hrely _ => ⟨hstable s s' hrely h, .inr ⟨⟨e, rfl⟩, hhealth, hfails e ?_⟩⟩
        rw [inspect, hpath]
        rfl
    | ok relativePath =>
        refine (sat_smooth hstable (.resolveWorkspace relativePath) rfl (fun _ _ _ hr => hr) h).bind ?_ ?_
        · rintro s path _ ⟨h, hresolve⟩
          refine (sat_smooth hstable (.readWorkspace path) rfl (fun _ _ _ hr => hr) h).bind ?_ ?_
          · rintro s content _ ⟨h, hread⟩
            have hinspect : inspect w cfg task envelope.action =
                compareFile cfg task envelope.action relativePath content := by
              rw [inspect, hpath, ok_bind, ← hresolve, ok_bind, ← hread, ok_bind]
            cases hfinding : compareFile cfg task envelope.action relativePath content with
            | error e =>
                exact fun s' hrely _ =>
                  ⟨hstable s s' hrely h, .inr ⟨⟨e, rfl⟩, hhealth, hfails e (hinspect.trans hfinding)⟩⟩
            | ok finding =>
                exact fun s' hrely _ =>
                  ⟨hstable s s' hrely h, .inl ⟨_, rfl, .inr ⟨hhealth, hinspect.trans hfinding⟩⟩⟩
          · rintro s' e _ ⟨h', hread⟩
            refine ⟨h', .inr ⟨⟨e, rfl⟩, hhealth, hfails e ?_⟩⟩
            rw [inspect, hpath, ok_bind, ← hresolve, ok_bind, ← hread]
            rfl
        · rintro s' e _ ⟨h', hresolve⟩
          refine ⟨h', .inr ⟨⟨e, rfl⟩, hhealth, hfails e ?_⟩⟩
          rw [inspect, hpath, ok_bind, ← hresolve]
          rfl

-- The worker has the file, and it has not been refused.
def Busy (i : ι) (d : Inode) (name : PyStr) (s : Shared ι) : Prop := Has i d .processing name s ∧ i ∉ s.refused

theorem Busy.stable {name : PyStr} (s s' : Shared ι) (hrely : contract.Rely i s s') (h : Busy i d name s) :
    Busy i d name s' :=
  ⟨h.1.stable (by simp) s s' hrely, not_refused_stable s s' hrely h.2⟩

theorem sat_create {name taskId : PyStr} {s : Shared ι} (h : Busy i d name s) (hfresh : Fresh i layout taskId s) :
    (keptContract w i).Sat i
      (fun s' r => Busy i d name s' ∧ ((r = .ok () ∧ layout.results taskId = none ∧ Filled i taskId [] s') ∨
      (∃ e, r = .error e) ∧ (Taken i taskId s' ∨ layout.results taskId ≠ none))) (createResult taskId) s := by
  refine Contract.Sat.catching (M := fun s' (r : Except PyExc Unit) => Busy i d name s' ∧
    ((r = .ok () ∧ layout.results taskId = none ∧ Filled i taskId [] s') ∨
      (∃ e, r = .error e) ∧ (Taken i taskId s' ∨ layout.results taskId ≠ none))) ?_ (fun s' _ _ h => h) ?_
  · refine Contract.sat_within_perform fun s₁ hrely _ r s₂ hexec _ _ s₃ hrely' _ => ?_
    obtain ⟨hexec, hsmooth⟩ := hexec
    have h₁ := h.stable s s₁ hrely
    have hfresh₁ := hfresh.stable s s₁ hrely
    cases hexec with
    | quiet _ _ hquiet => cases hquiet
    | fails _ e =>
        refine ⟨h₁.stable s₁ s₃ hrely', .inr ⟨⟨e, rfl⟩, ?_⟩⟩
        rcases hfresh₁ with ⟨-, hnone | htaken⟩ | ⟨hlayout, -⟩
        · cases hsmooth rfl hnone
        · exact .inl (htaken.stable hrely'.1)
        · exact .inr hlayout
    | breaks _ e content hop => cases hop
    | createResult _ n hfree hnew =>
        have h₂ : Busy i d name (s₁.create i taskId n) := h₁
        have hfilled : Filled i taskId [] (s₁.create i taskId n) :=
          ⟨n, by rw [Shared.results_create, if_pos rfl], by rw [Shared.files_create, if_pos rfl],
            by rw [Shared.handle_create, if_pos rfl]⟩
        have hlayout : layout.results taskId = none := by
          rcases hfresh₁ with ⟨hlayout, -⟩ | ⟨-, m, content, hm, -⟩
          · exact hlayout
          · rw [hfree] at hm
            cases hm
        exact ⟨h₂.stable _ s₃ hrely', .inl ⟨rfl, hlayout, hfilled.stable _ s₃ hrely'⟩⟩
  · rintro s' e _ ⟨h', ⟨he, -⟩ | ⟨-, hoccupied⟩⟩
    · cases he
    · have hends : ∀ e' s'', contract.Rely i s' s'' → Busy i d name s'' ∧
          (((Except.error e' : Except PyExc Unit) = .ok () ∧ layout.results taskId = none ∧ Filled i taskId [] s'') ∨
            (∃ e, (Except.error e' : Except PyExc Unit) = .error e) ∧
              (Taken i taskId s'' ∨ layout.results taskId ≠ none)) := fun e' s'' hrely =>
        ⟨h'.stable s' s'' hrely, .inr ⟨⟨e', rfl⟩, hoccupied.imp_left fun htaken => htaken.stable hrely.1⟩⟩
      split
      · exact fun s'' hrely _ => hends _ s'' hrely
      · exact fun s'' hrely _ => hends _ s'' hrely

-- An operation on the open result.
theorem sat_onOpen {P Q : Shared ι → Prop} (hP : ∀ s s', contract.Rely i s s' → P s → P s')
    (hQ : ∀ s s', contract.Rely i s s' → Q s → Q s') (op : WorkerOp) {s : Shared ι} (h : P s)
    (hop : ∀ s r s', P s → Exec i s op r s' → Smooth w s op r → Q s' ∧ ∃ b, r = .ok b) :
    (keptContract w i).Sat i (fun s' r => Q s' ∧ ∃ b, r = .ok b ∧ True) (perform op) s := by
  refine Contract.sat_within_perform fun s₁ hrely _ r s₂ hexec _ _ s₃ hrely' _ => ?_
  obtain ⟨h₂, b, hb⟩ := hop s₁ r s₂ (hP s s₁ hrely h) hexec.1 (hexec.2 rfl)
  exact ⟨hQ s₂ s₃ hrely' h₂, b, hb, trivial⟩

theorem sat_fill {name taskId : PyStr} (content : Bytes) {s : Shared ι} (h : Busy i d name s)
    (hfilled : Filled i taskId [] s) :
    (keptContract w i).Sat i (fun s' r => (Busy i d name s' ∧ Written i taskId content s') ∧ ∃ b, r = .ok b ∧ True)
      (fillResult taskId content) s := by
  have hstable : ∀ content, ∀ s s' : Shared ι, contract.Rely i s s' → Busy i d name s ∧ Filled i taskId content s →
      Busy i d name s' ∧ Filled i taskId content s' :=
    fun content s s' hrely h => ⟨h.1.stable s s' hrely, h.2.stable s s' hrely⟩
  have hwritten : ∀ s s' : Shared ι, contract.Rely i s s' → Busy i d name s ∧ Written i taskId content s →
      Busy i d name s' ∧ Written i taskId content s' :=
    fun s s' hrely h => ⟨h.1.stable s s' hrely, h.2.stable s s' hrely⟩
  refine (sat_onOpen (hstable []) (hstable []) (.openResult taskId) ⟨h, hfilled⟩ ?_).bind_ok ?_
  · rintro s r s' h hexec ⟨b, rfl⟩
    cases hexec with
    | quiet _ _ hquiet => cases hquiet
    | openResult => exact ⟨h, b, rfl⟩
  rintro s _ _ h -
  refine Contract.Sat.finishing (M := fun s' r => (Busy i d name s' ∧ Filled i taskId content s') ∧
    ∃ b, r = .ok b ∧ True) ?_ ?_ ?_
  · refine (sat_onOpen (hstable []) (hstable content) (.writeResult taskId content) h ?_).bind_ok ?_
    · rintro s r s' ⟨h, n, hn, hfile, hhandle⟩ hexec ⟨b, rfl⟩
      cases hexec with
      | quiet _ _ hquiet => cases hquiet
      | writeResult =>
          rw [s.fill_some i (· ++ content) n _ hhandle hfile]
          exact ⟨⟨h, n, hn, Function.update_self _ _ _, hhandle⟩, b, rfl⟩
    rintro s _ _ h -
    refine sat_onOpen (hstable content) (hstable content) (.syncResult taskId) h ?_
    rintro s r s' h hexec ⟨b, rfl⟩
    cases hexec with
    | quiet _ _ hquiet => cases hquiet
    | syncResult => exact ⟨h, b, rfl⟩
  · rintro s' r _ ⟨h', hr⟩
    refine (sat_onOpen (hstable content) hwritten (.closeResult taskId) h' ?_).mono ?_
    · rintro s r s' ⟨h, n, hn, hfile, -⟩ hexec ⟨b, rfl⟩
      cases hexec with
      | quiet _ _ hquiet => cases hquiet
      | closeResult => exact ⟨⟨h, n, hn, hfile⟩, b, rfl⟩
    · rintro s'' _ _ ⟨h'', _, rfl, -⟩
      exact ⟨h'', hr⟩
  · exact fun s' s'' r hrely _ h' => ⟨hwritten s' s'' hrely h'.1, h'.2⟩

variable (cfg) in
-- A result that can be serialised is written unless there is one.
theorem sat_result {name taskId : PyStr} (hid : isTaskId taskId = true) (payload : Fields) {s : Shared ι}
    (h : Busy i d name s) (hfresh : Fresh i layout taskId s) :
    (keptContract w i).Sat i (fun s' (r : Except PyExc (TaskOp.atomicResult taskId payload).Res) => Busy i d name s' ∧
      ((r = .ok () ∧ layout.results taskId = none ∧ ∃ content, encodedResult cfg.rt payload = .ok content ∧
        Written i taskId content s') ∨
        (∃ e, r = .error e) ∧ ((¬∃ content, encodedResult cfg.rt payload = .ok content) ∨ Taken i taskId s' ∨
          layout.results taskId ≠ none))) (body cfg (.atomicResult taskId payload)) s := by
  rw [body, atomicResult, if_pos hid]
  cases hcontent : encodedResult cfg.rt payload with
  | error e => exact fun s' hrely _ => ⟨h.stable s s' hrely, .inr ⟨⟨e, rfl⟩, .inl (by simp)⟩⟩
  | ok content =>
      refine (sat_create h hfresh).bind ?_ ?_
      · rintro s _ _ ⟨h, ⟨-, hlayout, hfilled⟩ | ⟨⟨e, he⟩, -⟩⟩
        · refine (sat_fill content h hfilled).catching ?_ ?_
          · rintro s' _ _ ⟨⟨h', hwritten⟩, -⟩
            exact ⟨h', .inl ⟨rfl, hlayout, content, rfl, hwritten⟩⟩
          · rintro s' e _ ⟨-, b, hb, -⟩
            cases hb
        · cases he
      · rintro s' e _ ⟨h', ⟨he, -⟩ | ⟨-, hoccupied⟩⟩
        · cases he
        · exact ⟨h', .inr ⟨⟨e, rfl⟩, .inr hoccupied⟩⟩

end Task

end V91Core.Worker
