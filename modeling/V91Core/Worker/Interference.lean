import V91Core.Worker.Unhindered

namespace V91Core.Worker

open V91Core.Python V91Core.Effect V91Core.Audit

variable {ι : Type} [DecidableEq ι] {w : World} {i : ι}

section Calls

variable {cfg : Config} {layout : Layout} {d : Inode}

theorem sat_sysCall {P : Shared ι → Prop} (hstable : ∀ s s', contract.Rely i s s' → P s → P s') (op : WorkerOp)
    (hop : op.quiet = true) {R : op.Res → Prop} (hR : ∀ s r, P s → Smooth w s op r → ∃ b, r = .ok b ∧ R b)
    {s : Shared ι} (h : P s) :
    (keptMarked w i).Sat i (fun s' r => P s' ∧ ∃ b, r = .ok b ∧ R b) (Prog.marked (body cfg) (.sys op)) s := by
  have hsat : (keptContract w i).Sat i (fun s' (r : Except PyExc (TaskOp.sys op).Res) => P s' ∧ ∃ b, r = .ok b ∧ R b)
      (body cfg (.sys op)) s := sat_smooth hstable op hop hR h
  exact hsat.marked_within (fun s₁ s₂ r hrely _ h => ⟨hstable s₁ s₂ hrely h.1, h.2⟩) fun _ _ h => h

theorem sat_clock {P : Shared ι → Prop} (hstable : ∀ s s', contract.Rely i s s' → P s → P s') {s : Shared ι} (h : P s) :
    (keptMarked w i).Sat i (fun s' r => P s' ∧ ∃ b, r = .ok b ∧ True) (Prog.marked (body cfg) (.sys .utcNow)) s :=
  sat_sysCall hstable .utcNow rfl (fun _ _ _ hr => hr.imp fun _ hb => ⟨hb, trivial⟩) h

theorem sat_appendCall {P : Shared ι → Prop} (hP : LockFree i P) (event : Fields) {s : Shared ι} (h : P s)
    (hfree : i ∉ s.refused) :
    (keptMarked w i).Sat i (fun s' r => P s' ∧
      ((r = .ok () ∧ i ∉ s'.refused ∧ ∃ line, eventLine cfg.rt (.obj event) = .ok line) ∨
        (∃ e, r = .error e) ∧ (i ∈ s'.refused ∨ ¬∃ line, eventLine cfg.rt (.obj event) = .ok line)))
      (Prog.marked (body cfg) (.appendAudit event)) s := by
  refine (sat_append hP cfg event h hfree).marked_within ?_ fun _ _ h => h
  rintro s₁ s₂ r hrely _ ⟨h, hr⟩
  refine ⟨hP.stable s₁ s₂ hrely h, ?_⟩
  rcases hr with ⟨hok, hfree, hline⟩ | ⟨he, hrefused | hline⟩
  · exact .inl ⟨hok, not_refused_stable s₁ s₂ hrely hfree, hline⟩
  · exact .inr ⟨he, .inl (hrely.1.refused i hrefused)⟩
  · exact .inr ⟨he, .inr hline⟩

-- What the worker keeps until it has a result.
def Open (i : ι) (layout : Layout) (d : Inode) (claimed : PyStr) (s : Shared ι) : Prop :=
  Has i d .processing claimed s ∧ Fresh i layout (taskIdOf claimed) s

theorem sat_prepare {claimed : PyStr} {s : Shared ι} (h : Open i layout d claimed s) (hfree : i ∉ s.refused) :
    (keptMarked w i).Sat i (fun s' r => Open i layout d claimed s' ∧
      ((∃ result, r = .ok result ∧ i ∉ s'.refused ∧ Suitable w cfg d (taskIdOf claimed) result) ∨
        (∃ e, r = .error e) ∧ Blocked w i cfg layout d (taskIdOf claimed) s'))
      ((prepare cfg claimed).expand (Prog.marked (body cfg))) s := by
  have hstable : ∀ s s', contract.Rely i s s' → Open i layout d claimed s → Open i layout d claimed s' :=
    fun s s' hrely h => ⟨h.1.stable (by simp) s s' hrely, h.2.stable s s' hrely⟩
  have hlock : LockFree i (Open i layout d claimed) := ⟨hstable, fun _ _ h => h, fun _ _ h => h⟩
  have hboth : ∀ s s', contract.Rely i s s' → Open i layout d claimed s ∧ i ∉ s.refused →
      Open i layout d claimed s' ∧ i ∉ s'.refused :=
    fun s s' hrely h => ⟨hstable s s' hrely h.1, not_refused_stable s s' hrely h.2⟩
  have hblocked : ∀ (s : Shared ι) (event : Fields), (∀ f ∈ event, ∃ text, f.2 = .str text) →
      (i ∈ s.refused ∨ ¬∃ line, eventLine cfg.rt (.obj event) = .ok line) →
        Blocked w i cfg layout d (taskIdOf claimed) s := by
    rintro s event hlabels (hrefused | hline)
    · exact .inr (.inl hrefused)
    · exact .inl fun hfeasible => hline (line_of_feasible hfeasible event hlabels)
  simp only [prepare, Prog.expand_bind, Prog.expand_perform]
  refine (sat_clock hboth ⟨h, hfree⟩).bind_ok ?_
  rintro s now _ ⟨h, hfree⟩ -
  refine (sat_appendCall hlock _ h hfree).bind ?_ ?_
  swap
  · rintro s' e _ ⟨h', ⟨he, -⟩ | ⟨-, hfailed⟩⟩
    · cases he
    · exact ⟨h', .inr ⟨⟨e, rfl⟩, hblocked s' _ (by simp [claimedEvent, label]) hfailed⟩⟩
  rintro s _ _ ⟨h, ⟨-, hfree, -⟩ | ⟨⟨e, he⟩, -⟩⟩
  swap
  · cases he
  refine (sat_sysCall hboth (.statClaimed claimed) rfl (R := (· = (w.content d).length))
    (fun s r h hr => ⟨_, hr d h.1.1.2, rfl⟩) ⟨h, hfree⟩).bind_ok ?_
  rintro s size _ ⟨h, hfree⟩ rfl
  by_cases hsize : maxTaskBytes < (w.content d).length
  · rw [if_pos hsize]
    intro s' hrely _
    exact ⟨hstable s s' hrely h, .inr ⟨⟨_, rfl⟩, .inl fun hfeasible => absurd hfeasible.size (by omega)⟩⟩
  rw [if_neg hsize]
  simp only [Prog.expand_bind, Prog.expand_perform, Prog.expand_ofExcept]
  refine (sat_sysCall hboth (.readClaimed claimed) rfl (R := (· = w.content d))
    (fun s r h hr => ⟨_, hr d h.1.1.2, rfl⟩) ⟨h, hfree⟩).bind_ok ?_
  rintro s content _ ⟨h, hfree⟩ rfl
  refine Contract.sat_ofExcept_cases (fun task htask => ?_) fun e htask s' hrely _ => ?_
  swap
  · refine ⟨hstable s s' hrely h, .inr ⟨⟨e, rfl⟩, .inl fun hfeasible => ?_⟩⟩
    obtain ⟨task, envelope, htask', -⟩ := hfeasible.executable
    rw [htask] at htask'
    cases htask'
  refine Contract.sat_ofExcept_cases (fun envelope hvalid => ?_) fun e hvalid s' hrely _ => ?_
  swap
  · refine ⟨hstable s s' hrely h, .inr ⟨⟨e, rfl⟩, .inl fun hfeasible => ?_⟩⟩
    obtain ⟨task', envelope, htask', hvalid', -⟩ := hfeasible.executable
    rw [htask] at htask'
    obtain rfl := Except.ok.inj htask'
    rw [hvalid] at hvalid'
    cases hvalid'
  refine (sat_clock hboth ⟨h, hfree⟩).bind_ok ?_
  rintro s now _ ⟨h, hfree⟩ -
  refine (sat_appendCall hlock _ h hfree).bind ?_ ?_
  swap
  · rintro s' e _ ⟨h', ⟨he, -⟩ | ⟨-, hfailed⟩⟩
    · cases he
    · exact ⟨h', .inr ⟨⟨e, rfl⟩, hblocked s' _ (by simp [startedEvent, label]) hfailed⟩⟩
  rintro s _ _ ⟨h, ⟨-, hfree, -⟩ | ⟨⟨e, he⟩, -⟩⟩
  swap
  · cases he
  refine ((sat_executeTask hboth task (taskIdOf claimed) envelope hvalid ⟨h, hfree⟩).marked_within
    (fun s₁ s₂ r hrely _ h => ⟨hboth s₁ s₂ hrely h.1, h.2⟩) fun _ _ h => h).mono ?_
  rintro s' r _ ⟨⟨h', hfree'⟩, ⟨result, rfl, hresult⟩ | ⟨he, hne, hnone⟩⟩
  · exact ⟨h', .inl ⟨result, rfl, hfree', by omega, task, envelope, htask, hvalid, hresult⟩⟩
  · refine ⟨h', .inr ⟨he, .inl fun hfeasible => ?_⟩⟩
    obtain ⟨task', envelope', htask', hvalid', hexecutable⟩ := hfeasible.executable
    rw [htask] at htask'
    obtain rfl := Except.ok.inj htask'
    rw [hvalid] at hvalid'
    obtain rfl := Except.ok.inj hvalid'
    obtain ⟨finding, hfinding, -⟩ := hexecutable hne
    exact hnone finding hfinding

-- The worker has completed the task.
def Finished (i : ι) (cfg : Config) (d : Inode) (claimed : PyStr) (s : Shared ι) : Prop :=
  Has i d .done claimed s ∧ i ∉ s.refused ∧ ∃ payload content, encodedResult cfg.rt payload = .ok content ∧
    statusIs "COMPLETED" payload ∧ Written i (taskIdOf claimed) content s

-- The worker has not moved the file to `done`.
def Left (i : ι) (d : Inode) (claimed : PyStr) (s : Shared ι) : Prop :=
  Has i d .processing claimed s ∨ Has i d .failed claimed s ∧ s.queue ⟨.processing, claimed⟩ = none

theorem Finished.stable {claimed : PyStr} (s s' : Shared ι) (hrely : contract.Rely i s s')
    (h : Finished i cfg d claimed s) : Finished i cfg d claimed s' := by
  obtain ⟨hhas, hfree, payload, content, hcontent, hstatus, hwritten⟩ := h
  exact ⟨hhas.stable (by simp) s s' hrely, not_refused_stable s s' hrely hfree, payload, content, hcontent, hstatus,
    hwritten.stable s s' hrely⟩

theorem sat_toDone {claimed taskId : PyStr} {content : Bytes} {s : Shared ι}
    (h : (Has i d .processing claimed s ∧ Written i taskId content s) ∧ i ∉ s.refused) :
    (keptMarked w i).Sat i (fun s' r => (Has i d .done claimed s' ∧ Written i taskId content s' ∧ i ∉ s'.refused) ∧
      r = .ok ()) (Prog.marked (body cfg) (.sys (.rename ⟨.processing, claimed⟩ ⟨.done, claimed⟩))) s := by
  have hstable : ∀ s s' : Shared ι, contract.Rely i s s' →
      Has i d .done claimed s ∧ Written i taskId content s ∧ i ∉ s.refused →
        Has i d .done claimed s' ∧ Written i taskId content s' ∧ i ∉ s'.refused := fun s s' hrely h =>
    ⟨h.1.stable (by simp) s s' hrely, h.2.1.stable s s' hrely, not_refused_stable s s' hrely h.2.2⟩
  have hsat : (keptContract w i).Sat i
      (fun s' (r : Except PyExc (TaskOp.sys (.rename ⟨.processing, claimed⟩ ⟨.done, claimed⟩)).Res) =>
        (Has i d .done claimed s' ∧ Written i taskId content s' ∧ i ∉ s'.refused) ∧ r = .ok ())
      (body cfg (.sys (.rename ⟨.processing, claimed⟩ ⟨.done, claimed⟩))) s := by
    refine Contract.sat_within_perform fun s₁ hrely _ r s₂ hexec _ _ s₃ hrely' _ => ?_
    obtain ⟨⟨hdrawn, hqueue⟩, hwritten⟩ : Has i d .processing claimed s₁ ∧ Written i taskId content s₁ :=
      ⟨h.1.1.stable (by simp) s s₁ hrely, h.1.2.stable s s₁ hrely⟩
    have hfree := not_refused_stable s s₁ hrely h.2
    obtain ⟨hexec, hsmooth⟩ := hexec
    have hok : r = .ok () := hsmooth rfl (by simp [hqueue])
    subst hok
    cases hexec with
    | quiet _ _ hquiet => cases hquiet
    | rename _ _ d' hsource =>
        obtain rfl : d = d' := Option.some.inj (hqueue.symm.trans hsource)
        have hmoved : (s₁.move i ⟨.processing, claimed⟩ ⟨.done, claimed⟩ d).queue ⟨.done, claimed⟩ = some d := by
          rw [Shared.queue_move, if_pos rfl]
        exact ⟨hstable _ s₃ hrely' ⟨⟨hdrawn, hmoved⟩, hwritten, hfree⟩, rfl⟩
  exact hsat.marked_within (fun s₁ s₂ r hrely _ h => ⟨hstable s₁ s₂ hrely h.1, h.2⟩) fun _ _ h => h

theorem sat_delivery {claimed : PyStr} (result : TaskResult) {s : Shared ι} (h : Open i layout d claimed s)
    (hfree : i ∉ s.refused) (hsuitable : Suitable w cfg d (taskIdOf claimed) result) :
    (keptMarked w i).Sat i (fun s' r =>
      ((r = .ok () ∧ Feasible w cfg layout (taskIdOf claimed) d ∧ Finished i cfg d claimed s') ∨
        (∃ e, r = .error e) ∧ Left i d claimed s' ∧ Blocked w i cfg layout d (taskIdOf claimed) s'))
      ((deliver claimed result).expand (Prog.marked (body cfg))) s := by
  have hid : isTaskId (taskIdOf claimed) = true := by
    obtain ⟨-, task, envelope, -, hvalid, -⟩ := hsuitable
    exact (envelope_of_valid task _ envelope hvalid).2
  have hiff : Feasible w cfg layout (taskIdOf claimed) d ↔ _ := feasible_iff hsuitable
  simp only [deliver, Prog.expand_bind, Prog.expand_perform]
  refine ((sat_result cfg hid result.fields ⟨h.1, hfree⟩ h.2).marked_within ?_ ?_).bind ?_ ?_
  · rintro s₁ s₂ r hrely _ ⟨h, hr⟩
    refine ⟨h.stable s₁ s₂ hrely, ?_⟩
    rcases hr with ⟨hok, hlayout, content, hcontent, hwritten⟩ | ⟨he, hcontent | htaken | hlayout⟩
    · exact .inl ⟨hok, hlayout, content, hcontent, hwritten.stable s₁ s₂ hrely⟩
    · exact .inr ⟨he, .inl hcontent⟩
    · exact .inr ⟨he, .inr (.inl (htaken.stable hrely.1))⟩
    · exact .inr ⟨he, .inr (.inr hlayout)⟩
  · rintro s₁ r h
    cases r with
    | ok u => exact h
    | error e => exact h
  swap
  · rintro s' e _ ⟨h', ⟨he, -⟩ | ⟨-, hfailed⟩⟩
    · cases he
    · refine .inr ⟨⟨e, rfl⟩, .inl h'.1, ?_⟩
      rcases hfailed with hcontent | htaken | hlayout
      · exact .inl fun hfeasible => hcontent ((encodedResult_isOk_iff cfg.rt _).mpr (hiff.mp hfeasible).1)
      · exact .inr (.inr htaken)
      · exact .inl fun hfeasible => hlayout hfeasible.fresh
  rintro s _ _ ⟨h, ⟨-, hlayout, content, hcontent, hwritten⟩ | ⟨⟨e, he⟩, -⟩⟩
  swap
  · cases he
  have hfits := (encodedResult_isOk_iff cfg.rt _).mp ⟨content, hcontent⟩
  have hstable : ∀ s s', contract.Rely i s s' →
      Has i d .processing claimed s ∧ Written i (taskIdOf claimed) content s →
        Has i d .processing claimed s' ∧ Written i (taskIdOf claimed) content s' :=
    fun s s' hrely h => ⟨h.1.stable (by simp) s s' hrely, h.2.stable s s' hrely⟩
  have hboth : ∀ s s', contract.Rely i s s' →
      (Has i d .processing claimed s ∧ Written i (taskIdOf claimed) content s) ∧ i ∉ s.refused →
        (Has i d .processing claimed s' ∧ Written i (taskIdOf claimed) content s') ∧ i ∉ s'.refused :=
    fun s s' hrely h => ⟨hstable s s' hrely h.1, not_refused_stable s s' hrely h.2⟩
  refine (sat_clock hboth ⟨⟨h.1, hwritten⟩, h.2⟩).bind_ok ?_
  rintro s now _ ⟨h, hfree⟩ -
  refine (sat_appendCall ⟨hstable, fun _ _ h => h, fun _ _ h => h⟩ _ h hfree).bind ?_ ?_
  swap
  · rintro s' e _ ⟨h', ⟨he, -⟩ | ⟨-, hrefused | hline⟩⟩
    · cases he
    · exact .inr ⟨⟨e, rfl⟩, .inl h'.1, .inr (.inl hrefused)⟩
    · exact .inr ⟨⟨e, rfl⟩, .inl h'.1,
        .inl fun hfeasible => hline ((completedEvent_isOk_iff cfg.rt _ _ _ hfits).mpr hfeasible.nesting)⟩
  rintro s _ _ ⟨h, ⟨-, hfree, hline⟩ | ⟨⟨e, he⟩, -⟩⟩
  swap
  · cases he
  have hfeasible := hiff.mpr ⟨hfits, (completedEvent_isOk_iff cfg.rt _ _ _ hfits).mp hline, hlayout⟩
  refine (sat_toDone ⟨h, hfree⟩).mono ?_
  rintro s' r _ ⟨⟨hhas, hwritten, hfree⟩, rfl⟩
  exact .inl ⟨rfl, hfeasible, hhas, hfree, result.fields, content, hcontent, result.lookup_status, hwritten⟩

-- What comes of the `try` block.
theorem sat_completion {claimed : PyStr} {s : Shared ι} (h : Open i layout d claimed s) (hfree : i ∉ s.refused) :
    (keptMarked w i).Sat i (fun s' r =>
      ((r = .ok () ∧ Feasible w cfg layout (taskIdOf claimed) d ∧ Finished i cfg d claimed s') ∨
        (∃ e, r = .error e) ∧ Left i d claimed s' ∧ Blocked w i cfg layout d (taskIdOf claimed) s'))
      ((complete cfg claimed).expand (Prog.marked (body cfg))) s := by
  simp only [complete, Prog.expand_bind]
  refine (sat_prepare h hfree).bind ?_ ?_
  · rintro s result _ ⟨h, ⟨_, hresult, hfree, hsuitable⟩ | ⟨⟨e, he⟩, -⟩⟩
    · obtain rfl := Except.ok.inj hresult
      exact sat_delivery result h hfree hsuitable
    · cases he
  · rintro s' e _ ⟨h', ⟨_, hresult, -⟩ | ⟨-, hblocked⟩⟩
    · cases hresult
    · exact .inr ⟨⟨e, rfl⟩, .inl h'.1, hblocked⟩

end Calls

section Renames

variable (cfg : Config)

-- Files are moved in this way only.
def MovesOnly (Q : Place → Place → Prop) : MarkedOp → Prop
  | .op (.rename source target) => Q source target
  | _ => True

-- A call of a function that moves no file, or a move of this kind.
def CallsOnly (Q : Place → Place → Prop) : TaskOp → Prop
  | .claimOne => False
  | .sys (.rename source target) => Q source target
  | _ => True

theorem CallsOnly.mono {Q Q' : Place → Place → Prop} (hQ : ∀ source target, Q source target → Q' source target)
    (c : TaskOp) (hc : CallsOnly Q c) : CallsOnly Q' c := by
  cases c with
  | claimOne => exact hc
  | sys op =>
      cases op with
      | rename source target => exact hQ source target hc
      | _ => trivial
  | _ => trivial

theorem only_body (Q : Place → Place → Prop) (c : TaskOp) (hc : CallsOnly Q c) :
    (body cfg c).Only fun op => MovesOnly Q (.op op) := by
  have hquiet : ∀ op : WorkerOp, op.quiet = true → MovesOnly Q (.op op) := by
    intro op hop
    cases op with
    | rename source target => cases hop
    | _ => trivial
  have hkeeps : ∀ op : WorkerOp, op.keepsQueue = true → MovesOnly Q (.op op) := by
    intro op hop
    cases op with
    | rename source target => cases hop
    | _ => trivial
  cases c with
  | claimOne => cases hc
  | appendAudit event => exact (Prog.only_true _).lift fun op _ => trivial
  | executeTask task taskId => exact (executeTask_quiet cfg task taskId).mono hquiet
  | atomicResult taskId payload => exact (atomicResult_keepsQueue cfg taskId payload).mono hkeeps
  | sys op =>
      cases op with
      | rename source target => exact Prog.only_perform _ hc
      | _ => exact Prog.only_perform _ trivial

theorem only_expanded {α : Type} (Q : Place → Place → Prop) {p : Calls α} (hp : p.Only (CallsOnly Q)) :
    (p.expand (Prog.marked (body cfg))).Only (MovesOnly Q) :=
  hp.expand_marked (only_body cfg Q) fun _ _ _ => trivial

theorem only_call (Q : Place → Place → Prop) (c : TaskOp) (hc : CallsOnly Q c) : (call c).Only (CallsOnly Q) :=
  Prog.only_perform c hc

-- The failure of a task only moves its file to `failed`.
theorem recordFailure_only (claimed : PyStr) (e : PyExc) :
    (recordFailure claimed e).Only
      (CallsOnly fun source target => source = ⟨.processing, claimed⟩ ∧ target = ⟨.failed, claimed⟩) := by
  have hcall := only_call fun source target => source = ⟨.processing, claimed⟩ ∧ target = ⟨.failed, claimed⟩
  refine (hcall (.sys .utcNow) trivial).bind fun now => ?_
  refine Prog.Only.bind ((hcall (.atomicResult _ _) trivial).catching fun _ => trivial) fun _ => ?_
  refine Prog.Only.finishing ?_ (only_guarded (hcall (.sys (.rename _ _)) ⟨rfl, rfl⟩) _)
  exact (hcall (.sys .utcNow) trivial).bind fun now => hcall (.appendAudit _) trivial

theorem complete_only (claimed : PyStr) :
    (complete cfg claimed).Only (CallsOnly fun source _ => source = ⟨.processing, claimed⟩) := by
  have hharmless : ∀ c : TaskOp, c.harmless = true → CallsOnly (fun source _ => source = ⟨.processing, claimed⟩) c := by
    intro c hc
    cases c with
    | claimOne => cases hc
    | sys op =>
        cases op with
        | rename source target => cases hc
        | _ => trivial
    | _ => trivial
  have hcall := only_call fun source _ => source = ⟨.processing, claimed⟩
  refine ((prepare_harmless cfg claimed).mono hharmless).bind fun result => ?_
  refine (hcall (.atomicResult _ _) trivial).bind fun _ => (hcall (.sys .utcNow) trivial).bind fun now => ?_
  exact (hcall (.appendAudit _) trivial).bind fun _ => hcall (.sys (.rename _ _)) rfl

-- An operation that draws no identifier or moves no file leaves the queue as it is.
theorem exec_cases (op : WorkerOp) (s : Shared ι) (r : Except PyExc op.Res) (s' : Shared ι) (hexec : Exec i s op r s') :
    (s'.queue = s.queue ∧ s'.claims = s.claims ∧ ∀ u, s.drawn u = some i → s'.drawn u = some i) ∨
      ∃ source target d, op = .rename source target ∧ s.queue source = some d ∧ s' = s.move i source target d := by
  by_cases hop : op.keepsQueue = true
  · obtain ⟨hqueue, hdrawn, hclaims⟩ := keepsQueue_step op hop s r s' hexec
    exact .inl ⟨hqueue, hclaims, fun u hu => by rw [hdrawn, hu]⟩
  · cases hexec with
    | uuid4 v hunused =>
        refine .inl ⟨rfl, rfl, fun u hu => ?_⟩
        by_cases huv : u = v
        · rw [huv]
          exact Function.update_self _ _ _
        · exact (Function.update_of_ne huv _ _).trans hu
    | rename source target d hsource => exact .inr ⟨source, target, d, rfl, hsource, rfl⟩
    | quiet _ _ hquiet => exact .inl ⟨rfl, rfl, fun _ h => h⟩
    | fails _ e => exact .inl ⟨rfl, rfl, fun _ h => h⟩
    | breaks _ e content hhandle => cases op <;> first | exact absurd rfl hop | cases hhandle
    | _ => exact absurd rfl hop

variable {cfg} {layout : Layout} {d : Inode}

theorem Left.stable {claimed : PyStr} (s s' : Shared ι) (hrely : contract.Rely i s s') (h : Left i d claimed s) :
    Left i d claimed s' := by
  rcases h with h | ⟨h, hnone⟩
  · exact .inl (h.stable (by simp) s s' hrely)
  · obtain ⟨⟨u, hu, hbears⟩, -⟩ := id h
    exact .inr ⟨h.stable (by simp) s s' hrely,
      ((hrely.2.drawn u hu).2 ⟨.processing, claimed⟩ (by simp) hbears).trans hnone⟩

theorem Left.exec {claimed : PyStr} (op : WorkerOp) (s : Shared ι) (r : Except PyExc op.Res) (s' : Shared ι)
    (hop : MovesOnly (fun source target => source = ⟨.processing, claimed⟩ ∧ target = ⟨.failed, claimed⟩) (.op op))
    (hexec : Exec i s op r s') (h : Left i d claimed s) : Left i d claimed s' := by
  rcases exec_cases op s r s' hexec with ⟨hqueue, -, hdrawn⟩ | ⟨source, target, d', rfl, hsource, rfl⟩
  · rw [Left, Has, Has, hqueue]
    exact h.imp (fun h => ⟨h.1.imp fun u hu => ⟨hdrawn u hu.1, hu.2⟩, h.2⟩)
      fun h => ⟨⟨h.1.1.imp fun u hu => ⟨hdrawn u hu.1, hu.2⟩, h.1.2⟩, h.2⟩
  · obtain ⟨rfl, rfl⟩ := hop
    rcases h with ⟨hdrawn, hqueue⟩ | ⟨-, hnone⟩
    · obtain rfl : d = d' := Option.some.inj (hqueue.symm.trans hsource)
      refine .inr ⟨⟨hdrawn, ?_⟩, ?_⟩
      · rw [Shared.queue_move, if_pos rfl]
      · rw [Shared.queue_move, if_neg (by simp), if_pos rfl]
    · rw [hnone] at hsource
      cases hsource

-- The worker has claimed no such file.
def Elsewhere (i : ι) (d : Inode) (s : Shared ι) : Prop := ∀ c ∈ s.claims, c.worker = i → c.file ≠ d

theorem Elsewhere.stable (s s' : Shared ι) (hrely : contract.Rely i s s') (h : Elsewhere i d s) : Elsewhere i d s' :=
  fun c hc hworker => h c (hrely.2.claims c hc hworker) hworker

theorem Elsewhere.exec {claimed : PyStr} (op : WorkerOp) (s : Shared ι) (r : Except PyExc op.Res) (s' : Shared ι)
    (hop : MovesOnly (fun source _ => source = ⟨.processing, claimed⟩) (.op op)) (hexec : Exec i s op r s')
    (h : Elsewhere i d s) : Elsewhere i d s' := by
  rcases exec_cases op s r s' hexec with ⟨-, hclaims, -⟩ | ⟨source, target, d', rfl, hsource, rfl⟩
  · rw [Elsewhere, hclaims]
    exact h
  · obtain rfl : source = ⟨.processing, claimed⟩ := hop
    intro c hc hworker
    rcases mem_claims_move hc with hc | ⟨hdir, -⟩
    · exact h c hc hworker
    · cases hdir

-- What the operations of a program keep holds when it has ended.
theorem sat_kept {α : Type} {Q : MarkedOp → Prop} {P : Shared ι → Prop}
    {p : Prog MarkedOp (MarkedRes WorkerOp.Res) PyExc α}
    (hp : p.Only Q) (hstable : ∀ s s', contract.Rely i s s' → P s → P s')
    (hop : ∀ op s (r : Except PyExc op.Res) s', Q (.op op) → Exec i s op r s' → Lasts s s' → P s → P s')
    (hnote : ∀ s c (answer : Except PyExc c.Res), P s → P (note i s c answer)) {s : Shared ι} (h : P s) :
    (keptMarked w i).Sat i (fun s' _ => P s') p s := by
  refine ((Contract.sat_within_true p s).frame (C := keptMarked w i) hstable
    (fun op s r s' hQ _ hexec h => ?_) hp h).mono
    fun s' r _ h => h.1
  obtain ⟨hexec, -, hguar⟩ := hexec
  cases op with
  | op op => exact hop op s r s' hQ hexec.1 hguar.1 h
  | returned c answer =>
      obtain ⟨-, rfl⟩ := hexec
      exact hnote s c answer h

end Renames

section Claim

variable {cfg : Config} {layout : Layout} {d : Inode} {f : PyStr}

-- The file is pending under this name only, or it has been moved.
def Waits (f : PyStr) (d : Inode) (s : Shared ι) : Prop :=
  (∃ place, s.queue place = some d) ∧ ∀ name, s.queue ⟨.pending, name⟩ = some d → name = f

-- The state of the worker before it claims a file.
structure Idle (i : ι) (layout : Layout) (f : PyStr) (d : Inode) (s : Shared ι) : Prop where
  elsewhere : Elsewhere i d s
  free : i ∉ s.refused
  waits : Waits f d s
  fresh : Fresh i layout (taskIdOf (stem f)) s

-- What the worker has after `claim_one`.
def Claimed (i : ι) (layout : Layout) (f : PyStr) (d : Inode) (s : Shared ι) (r : Except PyExc (Option PyStr)) : Prop :=
  Elsewhere i d s ∨ ∃ name, r = .ok (some name) ∧ taskIdOf name = taskIdOf (stem f) ∧
    Open i layout d name s ∧ i ∉ s.refused

omit [DecidableEq ι] in
theorem Waits.stable (s s' : Shared ι) (hlasts : Lasts s s') (h : Waits f d s) : Waits f d s' := by
  obtain ⟨⟨place, hplace⟩, hname⟩ := h
  refine ⟨hlasts.documents place d hplace, fun name hpending => ?_⟩
  rcases hlasts.pending name d hpending with hold | hnew
  · exact hname name hold
  · exact absurd hplace (hnew place)

theorem Idle.stable (s s' : Shared ι) (hrely : contract.Rely i s s') (h : Idle i layout f d s) : Idle i layout f d s' :=
  ⟨h.elsewhere.stable s s' hrely, not_refused_stable s s' hrely h.free, h.waits.stable s s' hrely.1,
    h.fresh.stable s s' hrely⟩

theorem Open.stable {claimed : PyStr} (s s' : Shared ι) (hrely : contract.Rely i s s') (h : Open i layout d claimed s) :
    Open i layout d claimed s' :=
  ⟨h.1.stable (by simp) s s' hrely, h.2.stable s s' hrely⟩

theorem Claimed.stable (s s' : Shared ι) (r : Except PyExc (Option PyStr)) (hrely : contract.Rely i s s')
    (h : Claimed i layout f d s r) : Claimed i layout f d s' r := by
  rcases h with h | ⟨name, hr, hid, h, hfree⟩
  · exact .inl (h.stable s s' hrely)
  · exact .inr ⟨name, hr, hid, h.stable s s' hrely, not_refused_stable s s' hrely hfree⟩

omit [DecidableEq ι] in
theorem taskIdOf_claim (cfg : Config) (source : PyStr) (u : UuidHex) :
    taskIdOf (claimName cfg source u) = taskIdOf (stem source) := by
  simp only [claimName, List.append_assoc]
  exact taskIdOf_append_dot _ _

theorem sat_draw {s : Shared ι} (h : Idle i layout f d s) :
    (keptContract w i).Sat i (fun s' r => Idle i layout f d s' ∧ ∃ u, r = .ok u ∧ s'.drawn u = some i)
      (perform .uuid4) s := by
  refine Contract.sat_within_perform fun s₁ hrely _ r s₂ hexec _ _ s₃ hrely' _ => ?_
  have h₁ := h.stable s s₁ hrely
  obtain ⟨hexec, hsmooth⟩ := hexec
  obtain ⟨u, rfl⟩ : ∃ u, r = .ok u := hsmooth rfl
  cases hexec with
  | quiet _ _ hquiet => cases hquiet
  | uuid4 _ hunused =>
      have h₂ : Idle i layout f d { s₁ with drawn := Function.update s₁.drawn u (some i) } := ⟨h₁.1, h₁.2, h₁.3, h₁.4⟩
      exact ⟨h₂.stable _ s₃ hrely', u, rfl, (hrely'.2.drawn u (Function.update_self _ _ _)).1⟩

variable (cfg) in
-- The rename claims the file, another one or none.
theorem sat_take (source : PyStr) (u : UuidHex) {s : Shared ι} (h : Idle i layout f d s) (hu : s.drawn u = some i) :
    (keptContract w i).Sat i (fun s' r => ((∃ e, r = .error e) → Idle i layout f d s') ∧
      (r = .ok () → Claimed i layout f d s' (.ok (some (claimName cfg source u)))))
      (perform (.rename ⟨.pending, source⟩ ⟨.processing, claimName cfg source u⟩)) s := by
  refine Contract.sat_within_perform fun s₁ hrely _ r s₂ hexec _ _ s₃ hrely' _ => ?_
  have h₁ := h.stable s s₁ hrely
  have hu₁ := (hrely.2.drawn u hu).1
  cases hexec.1 with
  | quiet _ _ hquiet => cases hquiet
  | fails _ e => exact ⟨fun _ => h₁.stable s₁ s₃ hrely', by simp⟩
  | breaks _ e content hop => cases hop
  | rename _ _ d' hsource =>
      refine ⟨by simp, fun _ => Claimed.stable _ s₃ _ hrely' ?_⟩
      by_cases hd : d' = d
      · subst hd
        obtain rfl := h₁.waits.2 source hsource
        have hid := taskIdOf_claim cfg source u
        refine .inr ⟨_, rfl, hid, ⟨⟨⟨u, hu₁, bears_claimName cfg source u⟩, ?_⟩, ?_⟩, h₁.free⟩
        · rw [Shared.queue_move, if_pos rfl]
        · rw [hid]
          rcases h₁.fresh with ⟨hlayout, hnone | ⟨c, hc, hrest⟩⟩ | hold
          · exact .inl ⟨hlayout, .inl hnone⟩
          · exact .inl ⟨hlayout, .inr ⟨c, claims_move c hc, hrest⟩⟩
          · exact .inr hold
      · refine .inl fun c hc hworker => ?_
        rcases mem_claims_move hc with hc | ⟨-, rfl⟩
        · exact h₁.elsewhere c hc hworker
        · exact hd

theorem sat_takeFrom (names : List PyStr) {s : Shared ι} (h : Idle i layout f d s) :
    (keptContract w i).Sat i (Claimed i layout f d) (claimFrom cfg names) s := by
  induction names generalizing s with
  | nil => exact fun s' hrely _ => .inl (h.elsewhere.stable s s' hrely)
  | cons source rest ih =>
      refine (sat_draw h).bind_ok ?_
      intro s u _ h hu
      refine (sat_take cfg source u h hu).attempt.bind ?_ ?_
      · rintro s outcome _ ⟨_, houtcome, hidle, hclaimed⟩
        obtain rfl := Except.ok.inj houtcome
        cases outcome with
        | ok _ => exact fun s' hrely _ => (hclaimed rfl).stable s s' _ hrely
        | error e =>
            dsimp only
            split
            · exact ih (hidle ⟨e, rfl⟩)
            · exact fun s' hrely _ => .inl ((hidle ⟨e, rfl⟩).elsewhere.stable s s' hrely)
      · rintro s' e _ ⟨_, houtcome, -⟩
        cases houtcome

theorem sat_takeOne {s : Shared ι} (h : Idle i layout f d s) :
    (keptContract w i).Sat i (fun s' (r : Except PyExc TaskOp.claimOne.Res) => Claimed i layout f d s' r)
      (body cfg .claimOne) s := by
  refine (sat_smooth Idle.stable .listPending rfl (M := fun r => ∃ b, r = .ok b ∧ True)
    (fun _ _ _ hr => hr.imp fun _ hb => ⟨hb, trivial⟩) h).bind_ok ?_
  intro s names _ h _
  exact sat_takeFrom _ h

end Claim

section Round

variable (w i) (cfg : Config) (layout : Layout) (f : PyStr) (d : Inode)

-- What the round of the worker has come to.
def Settled (s : Shared ι) : Prop :=
  Elsewhere i d s ∨ ∃ claimed, taskIdOf claimed = taskIdOf (stem f) ∧
    ((Feasible w cfg layout (taskIdOf claimed) d ∧ Finished i cfg d claimed s) ∨
      Left i d claimed s ∧ Blocked w i cfg layout d (taskIdOf claimed) s)

variable {w i cfg layout f d}

theorem Settled.stable (s s' : Shared ι) (hrely : contract.Rely i s s') (h : Settled w i cfg layout f d s) :
    Settled w i cfg layout f d s' := by
  rcases h with h | ⟨claimed, hid, ⟨hfeasible, h⟩ | ⟨h, hblocked⟩⟩
  · exact .inl (h.stable s s' hrely)
  · exact .inr ⟨claimed, hid, .inl ⟨hfeasible, h.stable s s' hrely⟩⟩
  · exact .inr ⟨claimed, hid, .inr ⟨h.stable s s' hrely, hblocked.stable hrely.1⟩⟩

variable (w cfg) in
theorem sat_elsewhere {α : Type} (claimed : PyStr) {p : Calls α}
    (hp : p.Only (CallsOnly fun source _ => source = ⟨.processing, claimed⟩)) {s : Shared ι} (h : Elsewhere i d s) :
    (keptMarked w i).Sat i (fun s' _ => Elsewhere i d s') (p.expand (Prog.marked (body cfg))) s := by
  refine sat_kept (only_expanded cfg _ hp) Elsewhere.stable (fun op s r s' hop hexec _ h =>
    h.exec op s r s' hop hexec) ?_ h
  intro s c answer h
  cases c with
  | atomicResult taskId payload => cases answer <;> exact h
  | _ => exact h

theorem sat_left (claimed : PyStr) (e : PyExc) {s : Shared ι}
    (h : Left i d claimed s ∧ Blocked w i cfg layout d (taskIdOf claimed) s) :
    (keptMarked w i).Sat i (fun s' _ => Left i d claimed s' ∧ Blocked w i cfg layout d (taskIdOf claimed) s')
      ((recordFailure claimed e).expand (Prog.marked (body cfg))) s := by
  refine sat_kept (only_expanded cfg _ (recordFailure_only claimed e)) ?_ ?_ ?_ h
  · exact fun s s' hrely h => ⟨h.1.stable s s' hrely, h.2.stable hrely.1⟩
  · exact fun op s r s' hop hexec hlasts h => ⟨h.1.exec op s r s' hop hexec, h.2.stable hlasts⟩
  · intro s c answer h
    cases c with
    | atomicResult taskId payload => cases answer <;> exact h
    | _ => exact h

theorem sat_round {s : Shared ι} (h : Idle i layout f d s) :
    (keptMarked w i).Sat i (fun s' _ => Settled w i cfg layout f d s')
      ((processOne cfg).expand (Prog.marked (body cfg))) s := by
  simp only [processOne, Prog.expand_bind, Prog.expand_perform]
  refine ((sat_takeOne h).marked_within (fun s₁ s₂ r hrely _ h => Claimed.stable s₁ s₂ r hrely h)
    fun _ _ h => h).bind ?_ ?_
  swap
  · rintro s' e _ (h' | ⟨name, hname, -⟩)
    · exact .inl h'
    · cases hname
  rintro s claimed _ hclaimed
  cases claimed with
  | none =>
      rcases hclaimed with h | ⟨name, hname, -⟩
      · exact fun s' hrely _ => .inl (h.stable s s' hrely)
      · cases hname
  | some claimed =>
      simp only [Prog.expand_bind, Prog.expand_catching]
      refine Contract.Sat.bind (M := fun s' _ => Settled w i cfg layout f d s') ?_
        (fun s _ _ h => fun s' hrely _ => h.stable s s' hrely) fun _ _ _ h => h
      rcases hclaimed with h | ⟨name, hname, hid, h, hfree⟩
      · have hcomplete := sat_elsewhere w cfg claimed (complete_only cfg claimed) h
        refine hcomplete.catching (fun _ _ _ h => .inl h) fun s e _ h => ?_
        have honly := (recordFailure_only claimed e).mono (CallsOnly.mono fun _ _ h => h.1)
        exact (sat_elsewhere w cfg claimed honly h).mono fun _ _ _ h => .inl h
      · obtain rfl : claimed = name := Option.some.inj (Except.ok.inj hname)
        refine (sat_completion h hfree).catching ?_ ?_
        · rintro s' _ _ (⟨-, hfeasible, h⟩ | ⟨⟨e, he⟩, -⟩)
          · exact .inr ⟨claimed, hid, .inl ⟨hfeasible, h⟩⟩
          · cases he
        · rintro s' e _ (⟨he, -⟩ | ⟨-, h⟩)
          · cases he
          · exact (sat_left claimed e h).mono fun _ _ _ h => .inr ⟨claimed, hid, .inr h⟩

theorem sat_oneRound {s : Shared ι} (h : Idle i layout f d s) :
    (keptMarked w i).Sat i (fun s' _ => Settled w i cfg layout f d s')
      ((work cfg 1).expand (Prog.marked (body cfg))) s := by
  simp only [work, Prog.expand_bind, Prog.expand_attempt]
  refine (sat_round h).attempt.bind ?_ ?_
  · rintro s _ _ ⟨_, -, h⟩
    exact fun s' hrely _ => h.stable s s' hrely
  · rintro s' e _ ⟨_, houtcome, -⟩
    cases houtcome

omit [DecidableEq ι] in
theorem start_idle (hd : layout.queue ⟨.pending, f⟩ = some d) : Idle i layout f d layout.shared where
  elsewhere _ hc := by cases hc
  free := by simp [Layout.shared]
  waits := ⟨⟨_, hd⟩, fun name hname => congrArg Place.name (layout.single _ _ d hname hd)⟩
  fresh := by
    cases hresult : layout.results (taskIdOf (stem f)) with
    | none => exact .inl ⟨hresult, .inl hresult⟩
    | some n =>
        obtain ⟨content, hcontent⟩ := Option.isSome_iff_exists.mp (layout.present _ n hresult)
        exact .inr ⟨by simp [hresult], n, content, hresult, by simp [Layout.shared, hcontent]⟩

end Round

section Undisturbed

variable {cfg : ι → Config} {layout : Layout} {f : PyStr} {d : Inode}

theorem sharing_good (rounds : ι → Nat) :
    ((sharedContract w i).marked note).Good (fun _ _ _ => True) (start cfg rounds layout) :=
  (start_good cfg rounds layout).sub ((System.limit_sub _).marked note)

theorem settled_of_reach {rounds : ι → Nat} (hrounds : rounds i = 1) (hd : layout.queue ⟨.pending, f⟩ = some d)
    {p : Pool ι (Shared ι) MarkedOp (MarkedRes WorkerOp.Res) PyExc Unit}
    (hreach : (markedSharing w i).Reach (start cfg rounds layout) p) (hended : p.procs i = .ret ()) :
    Settled w i (cfg i) layout f d p.shared ∧ p.shared.Inv := by
  have hgood : ((sharedContract w i).marked note).Good (fun _ _ _ => True) (start cfg rounds layout) :=
    sharing_good rounds
  have hsat : (keptMarked w i).Sat i (fun s' _ => Settled w i (cfg i) layout f d s')
      ((start cfg rounds layout).procs i) (start cfg rounds layout).shared := by
    have hproc : (start cfg rounds layout).procs i = (work (cfg i) 1).expand (Prog.marked (body (cfg i))) := by
      rw [← hrounds]
      rfl
    rw [hproc]
    exact sat_oneRound (start_idle hd)
  exact ⟨hgood.ends hsat hreach hended, (hgood.reach hreach).inv⟩

omit [DecidableEq ι] in
theorem completed_of_finished {config : Config} {claimed : PyStr} {s : Shared ι} (h : Finished i config d claimed s) :
    Completed config.rt (taskIdOf claimed) d s := by
  obtain ⟨⟨-, hdone⟩, -, payload, content, hcontent, hstatus, n, hn, hfile⟩ := h
  exact ⟨⟨claimed, hdone⟩, n, _, payload, hn, hfile, hcontent, hstatus⟩

omit [DecidableEq ι] in
theorem not_completed_of_left {claimed taskId : PyStr} {s : Shared ι} (hinv : s.Inv) (h : Left i d claimed s) :
    ¬Completed (cfg i).rt taskId d s := by
  rintro ⟨⟨name, hname⟩, -⟩
  rcases h with ⟨-, hqueue⟩ | ⟨⟨-, hqueue⟩, -⟩
  · cases congrArg Place.dir (hinv.single _ _ d hname hqueue)
  · cases congrArg Place.dir (hinv.single _ _ d hname hqueue)

omit [DecidableEq ι] in
theorem not_elsewhere {p : Pool ι (Shared ι) MarkedOp (MarkedRes WorkerOp.Res) PyExc Unit} (h : Processed i d p) :
    ¬Elsewhere i d p.shared := by
  obtain ⟨-, name, hclaim⟩ := h
  exact fun helsewhere => helsewhere _ hclaim rfl rfl

theorem feasible_of_alone (hd : layout.queue ⟨.pending, f⟩ = some d)
    (h : CompletesAlone w cfg layout i (taskIdOf (stem f)) d) : Feasible w (cfg i) layout (taskIdOf (stem f)) d := by
  obtain ⟨p, hreach, hprocessed, hcompleted⟩ := h
  obtain ⟨hsettled, hinv⟩ := settled_of_reach (Function.update_self _ _ _) hd hreach hprocessed.1
  rcases hsettled with helsewhere | ⟨claimed, hid, ⟨hfeasible, -⟩ | ⟨hleft, -⟩⟩
  · exact absurd helsewhere (not_elsewhere hprocessed)
  · rwa [hid] at hfeasible
  · exact absurd hcompleted (not_completed_of_left hinv hleft)

-- A worker that completes a file alone completes it among others that work on other
-- tasks if it never finds the audit log locked, and only then.
theorem undisturbed_iff (w : World) (cfg : ι → Config) (rounds : ι → Nat) (layout : Layout) (i : ι)
    (f : PyStr) (d : Inode) (hrounds : rounds i = 1) (hd : layout.queue ⟨.pending, f⟩ = some d)
    (halone : CompletesAlone w cfg layout i (taskIdOf (stem f)) d)
    (p : Pool ι (Shared ι) MarkedOp (MarkedRes WorkerOp.Res) PyExc Unit)
    (hreach : (markedSharing w i).Reach (start cfg rounds layout) p) (hprocessed : Processed i d p)
    (hothers : ∀ c ∈ p.shared.claims, c.worker ≠ i → taskIdOf c.name ≠ taskIdOf (stem f)) :
    Completed (cfg i).rt (taskIdOf (stem f)) d p.shared ↔ i ∉ p.shared.refused := by
  obtain ⟨hsettled, hinv⟩ := settled_of_reach hrounds hd hreach hprocessed.1
  rcases hsettled with helsewhere | ⟨claimed, hid, ⟨-, hfinished⟩ | ⟨hleft, hblocked⟩⟩
  · exact absurd helsewhere (not_elsewhere hprocessed)
  · exact iff_of_true (hid ▸ completed_of_finished hfinished) hfinished.2.1
  · refine iff_of_false (not_completed_of_left hinv hleft) (not_not.mpr ?_)
    rw [hid] at hblocked
    rcases hblocked with hnot | hrefused | ⟨c, hc, hworker, htask⟩
    · exact absurd (feasible_of_alone hd halone) hnot
    · exact hrefused
    · exact absurd htask (hothers c hc hworker)

section Contention

theorem reply_smooth (supply : Supply) (s : Shared ι) (op : WorkerOp) (r : Except PyExc op.Res) (s' : Shared ι)
    (h : reply w supply i s op = some (r, s')) : Smooth w s op r := by
  cases op with
  | audit op =>
      cases op with
      | createLock =>
          intro hlock
          rw [reply, hlock] at h
          exact (Prod.mk.inj (Option.some.inj h)).1.symm
      | unlinkLock =>
          intro hlock
          obtain ⟨j, hj⟩ := Option.ne_none_iff_exists'.mp hlock
          rw [reply, hj] at h
          exact (Prod.mk.inj (Option.some.inj h)).1.symm
      | _ => exact ⟨_, (Prod.mk.inj (Option.some.inj h)).1.symm⟩
  | uuid4 =>
      obtain ⟨u, -, hpair⟩ := Option.map_eq_some_iff.mp h
      exact ⟨u, (Prod.mk.inj hpair).1.symm⟩
  | rename source target =>
      intro hsource
      obtain ⟨d, hd⟩ := Option.ne_none_iff_exists'.mp hsource
      rw [reply, hd] at h
      exact (Prod.mk.inj (Option.some.inj h)).1.symm
  | statClaimed name =>
      intro d hd
      rw [reply, hd] at h
      exact (Prod.mk.inj (Option.some.inj h)).1.symm
  | readClaimed name =>
      intro d hd
      rw [reply, hd] at h
      exact (Prod.mk.inj (Option.some.inj h)).1.symm
  | resolveWorkspace path => exact (Prod.mk.inj (Option.some.inj h)).1.symm
  | readWorkspace path => exact (Prod.mk.inj (Option.some.inj h)).1.symm
  | createResult taskId =>
      intro hfree
      rw [reply, hfree] at h
      obtain ⟨n, -, hpair⟩ := Option.map_eq_some_iff.mp h
      exact (Prod.mk.inj hpair).1.symm
  | unlinkResult taskId =>
      intro hfound
      obtain ⟨n, hn⟩ := Option.ne_none_iff_exists'.mp hfound
      rw [reply, hn] at h
      exact (Prod.mk.inj (Option.some.inj h)).1.symm
  | _ => exact ⟨_, (Prod.mk.inj (Option.some.inj h)).1.symm⟩

def sharingDriver (w : World) (supply : Supply) (i : ι) : Driver (markedSharing w i) where
  run := (driver w supply).run
  sound j s op r s' h := by
    have hexec := (driver w supply).sound j s op r s' h
    cases op with
    | op op => exact ⟨hexec, fun hji => reply_smooth (i := j) supply s op r s' h⟩
    | returned c answer => exact hexec

def otherContent : Bytes :=
  (eventLine sampleConfig.rt (.obj [label "task_id" (py "other"), label "action" (py "health_snapshot"),
    label "purpose" (py "Check the queue."), label "expected_effect" (py "A result file.")])).toOption.getD []

def pairWorld : World :=
  ⟨fun d => if d = 1 then sampleContent else otherContent, fun path => .ok path, fun _ => .error .fileNotFound⟩

def jobFile : Place := ⟨.pending, py "job.json"⟩

def otherFile : Place := ⟨.pending, py "other.json"⟩

def pairQueue (place : Place) : Option Inode :=
  if place = jobFile then some 1 else if place = otherFile then some 2 else none

theorem pairQueue_cases (place : Place) (d : Inode) (h : pairQueue place = some d) :
    (place = jobFile ∧ d = 1) ∨ place = otherFile ∧ d = 2 := by
  unfold pairQueue at h
  split at h
  · next hjob => exact .inl ⟨hjob, (Option.some.inj h).symm⟩
  · simp only [Option.ite_none_right_eq_some, Option.some.injEq] at h
    exact .inr ⟨h.1, h.2.symm⟩

theorem pairQueue_single (p q : Place) (d : Inode) (hp : pairQueue p = some d) (hq : pairQueue q = some d) : p = q := by
  rcases pairQueue_cases p d hp with ⟨rfl, rfl⟩ | ⟨rfl, rfl⟩
  · rcases pairQueue_cases q 1 hq with ⟨rfl, -⟩ | ⟨-, hd⟩
    · rfl
    · cases hd
  · rcases pairQueue_cases q 2 hq with ⟨-, hd⟩ | ⟨rfl, -⟩
    · cases hd
    · rfl

theorem pairQueue_pending (place : Place) (hdir : place.dir ≠ .pending) : pairQueue place = none := by
  by_contra hne
  obtain ⟨d, hd⟩ := Option.ne_none_iff_exists'.mp hne
  rcases pairQueue_cases place d hd with ⟨rfl, -⟩ | ⟨rfl, -⟩
  · exact hdir rfl
  · exact hdir rfl

-- Two documents, and no results.
def pairLayout : Layout :=
  { sampleLayout with
    queue := pairQueue
    single := pairQueue_single
    named := fun _ place hdir _ h => absurd (pairQueue_pending place hdir) h }

def pairSupply : Supply := ⟨[py "job.json", py "other.json"], [sampleUuid, otherUuid], [1000, 1001]⟩

-- The worker on its own.
def aloneRun : Option (Pool Bool (Shared Bool) MarkedOp (MarkedRes WorkerOp.Res) PyExc Unit) :=
  (sharingDriver pairWorld pairSupply true).play (List.replicate 80 true)
    (start (fun _ => sampleConfig) (Function.update (fun _ => 0) true 1) pairLayout)

-- The other worker holds the lock when this one begins its first event.
def lockedRun : Option (Pool Bool (Shared Bool) MarkedOp (MarkedRes WorkerOp.Res) PyExc Unit) :=
  (sharingDriver pairWorld pairSupply true).play (List.replicate 6 true ++ List.replicate 9 false ++
    List.replicate 40 true) (start (fun _ => sampleConfig) (fun _ => 1) pairLayout)

def jobClaim : Claim Bool := ⟨true, 1, claimName sampleConfig (py "job.json") sampleUuid⟩

def otherClaim : Claim Bool := ⟨false, 2, claimName sampleConfig (py "other.json") otherUuid⟩

theorem aloneRun_returns : (aloneRun.any fun p => decide ((p.procs true).outcome = some (.ok ()) ∧
    p.shared.claims = [jobClaim] ∧ p.shared.queue ⟨.done, jobClaim.name⟩ = some 1)) = true := by decide +kernel

theorem lockedRun_returns : (lockedRun.any fun p => decide ((p.procs true).outcome = some (.ok ()) ∧
    p.shared.claims = [otherClaim, jobClaim] ∧ true ∈ p.shared.refused)) = true := by decide +kernel

theorem job_completes_alone : CompletesAlone pairWorld (fun _ => sampleConfig) pairLayout true (py "job") 1 := by
  obtain ⟨p, hrun, hp⟩ := (Option.any_eq_true _ _).mp aloneRun_returns
  obtain ⟨houtcome, hclaims, hqueue⟩ := of_decide_eq_true hp
  have hended := (Prog.outcome_eq_ok _ _).mp houtcome
  have hreach := (sharingDriver pairWorld pairSupply true).play_reach _ _ p hrun
  have hprocessed : Processed true 1 p := ⟨hended, jobClaim.name, hclaims ▸ List.mem_singleton_self _⟩
  have htask : taskIdOf (stem (py "job.json")) = py "job" := by decide +kernel
  obtain ⟨hsettled, hinv⟩ := settled_of_reach (f := py "job.json") (Function.update_self _ _ _) rfl hreach hended
  refine ⟨p, hreach, hprocessed, ?_⟩
  rcases hsettled with helsewhere | ⟨claimed, hid, ⟨-, hfinished⟩ | ⟨hleft, -⟩⟩
  · exact absurd helsewhere (not_elsewhere hprocessed)
  · have hcompleted := completed_of_finished hfinished
    rwa [hid, htask] at hcompleted
  · rcases hleft with ⟨-, hleft⟩ | ⟨⟨-, hleft⟩, -⟩
    · cases congrArg Place.dir (hinv.single _ _ 1 hqueue hleft)
    · cases congrArg Place.dir (hinv.single _ _ 1 hqueue hleft)

-- The other worker works on another task, and still the document is not completed.
theorem undisturbed_iff_locked : ∃ p, lockedRun = some p ∧ p.procs true = .ret () ∧
    ¬Completed sampleConfig.rt (py "job") 1 p.shared := by
  obtain ⟨p, hrun, hp⟩ := (Option.any_eq_true _ _).mp lockedRun_returns
  obtain ⟨houtcome, hclaims, hrefused⟩ := of_decide_eq_true hp
  have hended := (Prog.outcome_eq_ok _ _).mp houtcome
  have hreach := (sharingDriver pairWorld pairSupply true).play_reach _ _ p hrun
  refine ⟨p, hrun, hended, fun hcompleted => ?_⟩
  refine (undisturbed_iff pairWorld (fun _ => sampleConfig) (fun _ => 1) pairLayout true (py "job.json") 1 rfl rfl
    job_completes_alone p hreach ⟨hended, jobClaim.name, by simp [hclaims, jobClaim]⟩ ?_).mp hcompleted hrefused
  intro c hc hworker
  rw [hclaims] at hc
  rcases List.mem_pair.mp hc with rfl | rfl
  · decide +kernel
  · exact absurd rfl hworker

end Contention

end Undisturbed

end V91Core.Worker
