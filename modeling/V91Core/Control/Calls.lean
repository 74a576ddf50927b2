import V91Core.Control.Cycle

namespace V91Core.Control

open V91Core.Python V91Core.Effect

variable {cfg : Config}

namespace Call

-- The argument of a call of `scale_worker`.
def scales (c : Call cfg) : Option Int :=
  match c.op with
  | .scaleWorker replicas => some replicas
  | _ => none

-- The snapshot that a call of `collect_snapshot` returned.
def observed : Call cfg → Option Snapshot
  | ⟨.collectSnapshot, _, .ok s, _⟩ => some s
  | _ => none

-- The event that a call of `append_audit` was to append.
def event (c : Call cfg) : Option (List (PyStr × Json)) :=
  match c.op with
  | .appendAudit event => some event
  | _ => none

-- The event that it has appended.
def appended : Call cfg → Option (List (PyStr × Json))
  | ⟨.appendAudit event, _, .ok _, _⟩ => some event
  | _ => none

def usesState (c : Call cfg) : Bool :=
  match c.op with
  | .readLowSampleCount | .writeState _ => true
  | _ => false

-- A call that only draws an identifier, reads the clock or appends a record.
def records (c : Call cfg) : Prop := c.scales = none ∧ c.observed = none ∧ c.usesState = false

end Call

section Records

theorem emits_call (P : Call cfg → Prop) (op : CycleOp) (hop : ∀ c : Call cfg, c.op = op → P c) :
    (call op).Emits (Called cfg) P := by
  refine Prog.emits_perform op fun c r hcalled => ?_
  cases hcalled
  exact hop _ rfl

theorem records_of_op (op : CycleOp) (c : Call cfg) (hc : c.op = op)
    (hop : op = .uuid4 ∨ op = .utcNow ∨ ∃ event, op = .appendAudit event) : c.records := by
  obtain ⟨op', steps, r, runs⟩ := c
  obtain rfl : op' = op := hc
  rcases hop with rfl | rfl | ⟨event, rfl⟩ <;> exact ⟨rfl, rfl, rfl⟩

theorem emits_records (op : CycleOp) (hop : op = .uuid4 ∨ op = .utcNow ∨ ∃ event, op = .appendAudit event) :
    (call op).Emits (Called cfg) Call.records :=
  emits_call _ op fun c hc => records_of_op op c hc hop

variable (allowActions allowScaleDown : Bool) (s : Snapshot)

theorem recordNoData_records (e : PyExc) : (recordNoData cfg e).Emits (Called cfg) Call.records :=
  (emits_records .uuid4 (by simp)).bind fun _ => (emits_records .utcNow (by simp)).bind fun _ =>
    (emits_records (.appendAudit _) (by simp)).bind fun _ => Prog.emits_ret _

theorem recordDecision_records (action : Option ScaleAction) (reason : PyStr) :
    (recordDecision cfg allowActions allowScaleDown s action reason).Emits (Called cfg) Call.records :=
  (emits_records .uuid4 (by simp)).bind fun _ => (emits_records .utcNow (by simp)).bind fun _ =>
    (emits_records (.appendAudit _) (by simp)).bind fun _ => Prog.emits_ret _

theorem recordDecision_appended (action : Option ScaleAction) (reason : PyStr) (calls : List (Call cfg))
    (eventId : PyStr) (event : List (PyStr × Json))
    (h : (recordDecision cfg allowActions allowScaleDown s action reason).Runs (Called cfg) calls
      (.ok (eventId, event))) :
    ∃ c ∈ calls, ∃ now, c.appended = some event ∧
      event = decisionEvent eventId now cfg.projectName s action reason allowActions allowScaleDown := by
  obtain ⟨eventId', _, _, rfl, -, hnow⟩ := (Prog.runs_bind_ok _ _ _ _).mp h
  obtain ⟨now, _, _, rfl, -, hevent⟩ := (Prog.runs_bind_ok _ _ _ _).mp hnow
  obtain ⟨_, _, _, rfl, happend, hret⟩ := (Prog.runs_bind_ok _ _ _ _).mp hevent
  obtain ⟨c, rfl, hcalled⟩ := (Prog.runs_perform _ _ _).mp happend
  obtain ⟨rfl, heq⟩ := (Prog.runs_ret _ _ _).mp hret
  cases heq
  cases hcalled
  exact ⟨_, List.mem_append_right _ (List.mem_append_right _ (List.mem_append_left _ List.mem_cons_self)), now,
    rfl, rfl⟩

end Records

section Acting

-- The action's call has returned and the next one shows the target.
def Verified (target : Int) (act : Call cfg) (rest : List (Call cfg)) : Prop :=
  (∃ r, act.answer = .ok r) ∧ ∃ c more post, rest = c :: more ∧ c.observed = some post ∧
    post.replicas = target ∧ post.running = target

def phaseIs (phase : String) (event : List (PyStr × Json)) : Prop :=
  Json.lookup (py "phase") event = some (.str (py phase))

-- The calls of the `try` block and whether it raised.
inductive Attempted (target : Int) : List (Call cfg) → Bool → Prop
  | unverified (act : Call cfg) (rest : List (Call cfg)) (hact : act.scales = some target)
      (hverified : ∀ more, ¬ Verified target act (rest ++ more))
      (hrest : ∀ c ∈ rest, c.scales = none ∧ c.event = none) : Attempted target (act :: rest) true
  | unrecorded (act append : Call cfg) (rest : List (Call cfg)) (event : List (PyStr × Json))
      (hact : act.scales = some target) (hverified : ∀ more, Verified target act (rest ++ more))
      (hrest : ∀ c ∈ rest, c.scales = none ∧ c.event = none) (hevent : append.event = some event)
      (hphase : phaseIs "VERIFY" event) (hfailed : append.appended = none) :
      Attempted target (act :: (rest ++ [append])) true
  | recorded (act append : Call cfg) (rest : List (Call cfg)) (event : List (PyStr × Json))
      (hact : act.scales = some target) (hverified : ∀ more, Verified target act (rest ++ more))
      (hrest : ∀ c ∈ rest, c.scales = none ∧ c.event = none) (hphase : phaseIs "VERIFY" event)
      (happended : append.appended = some event) : Attempted target (act :: (rest ++ [append])) false

theorem lookup_update (key : PyStr) (fields more : List (PyStr × Json)) (h : ∀ f ∈ more, f.1 ≠ key) :
    Json.lookup key (update fields more) = Json.lookup key fields := by
  induction more generalizing fields with
  | nil => rfl
  | cons f more ih =>
      have hrest := ih (Json.insert f.1 f.2 fields) fun g hg => h g (List.mem_cons_of_mem _ hg)
      rw [← Json.lookup_insert_ne key f.1 f.2 fields (h f List.mem_cons_self)]
      exact hrest

theorem verifyEvent_phase (eventId : PyStr) (now : Audit.UtcTime) (s post : Snapshot) (target : Int)
    (action : ScaleAction) :
    phaseIs "VERIFY" (verifyEvent eventId now s post target (measureEffect s post action)) := by
  have hnames : ∀ f ∈ measureEffect s post action, f.1 ≠ py "phase" := by
    simp only [measureEffect, field, text, List.forall_mem_cons]
    refine ⟨?_, ?_, ?_, ?_, by simp⟩ <;> decide
  rw [phaseIs, verifyEvent, lookup_update _ _ _ hnames]
  rfl

theorem utcNow_returns (c : Call cfg) (e : PyExc) (h : Called cfg c .utcNow (.error e)) : False := by
  cases h with
  | mk _ steps _ runs =>
      obtain ⟨step, -, hans⟩ := (Prog.runs_perform _ _ _).mp runs
      cases hans with
      | answered _ _ htotal =>
          obtain ⟨b, hb⟩ := htotal rfl
          cases hb

theorem actAndVerify_attempted (s : Snapshot) (action : ScaleAction) (eventId : PyStr)
    (result : List (PyStr × Json)) (calls : List (Call cfg)) (out : Except PyExc (List (PyStr × Json)))
    (h : (actAndVerify s action eventId result).Runs (Called cfg) calls out) :
    Attempted (target s (some action)) calls !out.isOk := by
  rcases (Prog.runs_perform_bind _ _ _ _).mp h with ⟨act, _, rest, rfl, hact, hpost⟩ | ⟨act, e, rfl, rfl, hact⟩
  swap
  · cases hact
    refine .unverified _ [] rfl ?_ (by simp)
    rintro more ⟨⟨r, hr⟩, -⟩
    cases hr
  rcases (Prog.runs_perform_bind _ _ _ _).mp hpost with ⟨c, post, rest, rfl, hc, hmatch⟩ | ⟨c, e, rfl, rfl, hc⟩
  swap
  · cases hact
    cases hc
    refine .unverified _ _ rfl ?_ (by simp [Call.scales, Call.event])
    rintro more ⟨-, d, _, post, hd, hobserved, -⟩
    obtain ⟨rfl, -⟩ := List.cons_eq_cons.mp hd
    cases hobserved
  split at hmatch
  · rename_i hne
    obtain ⟨rfl, rfl⟩ := (Prog.runs_raise _ _ _).mp hmatch
    cases hact
    cases hc
    refine .unverified _ _ rfl ?_ (by simp [Call.scales, Call.event])
    rintro more ⟨-, d, _, post', hd, hobserved, hreplicas, hrunning⟩
    obtain ⟨rfl, -⟩ := List.cons_eq_cons.mp hd
    obtain rfl : post = post' := Option.some.inj hobserved
    exact hne.elim (fun h => h hreplicas) fun h => h hrunning
  · rename_i heq
    rcases (Prog.runs_perform_bind _ _ _ _).mp hmatch with ⟨n, now, rest, rfl, hn, happend⟩ | ⟨n, e, rfl, rfl, hn⟩
    swap
    · exact (utcNow_returns n e hn).elim
    have hverified : ∀ more, Verified (target s (some action)) act ([c, n] ++ more) := by
      cases hact
      cases hc
      exact fun more => ⟨⟨_, rfl⟩, _, n :: more, post, rfl, rfl, by_contra fun h => heq (.inl h),
        by_contra fun h => heq (.inr h)⟩
    have hrest : ∀ d ∈ [c, n], d.scales = none ∧ d.event = none := by
      cases hc
      cases hn
      simp [Call.scales, Call.event]
    have hphase := verifyEvent_phase eventId now s post (target s (some action)) action
    cases hact
    rcases (Prog.runs_perform_bind _ _ _ _).mp happend with ⟨a, _, rest, rfl, ha, hret⟩ | ⟨a, e, rfl, rfl, ha⟩
    · obtain ⟨rfl, rfl⟩ := (Prog.runs_ret _ _ _).mp hret
      cases ha
      exact .recorded _ _ [c, n] _ rfl hverified hrest hphase rfl
    · cases ha
      exact .unrecorded _ _ [c, n] _ rfl hverified hrest rfl hphase rfl

theorem restore_calls (s : Snapshot) (calls : List (Call cfg)) (out : Except PyExc Bool)
    (h : (restore s).Runs (Called cfg) calls out) :
    ∃ act rest, calls = act :: rest ∧ act.scales = some s.replicas ∧ ∀ c ∈ rest, c.scales = none ∧ c.event = none := by
  rcases (Prog.runs_perform_bind _ _ _ _).mp h with ⟨act, _, rest, rfl, hact, hpost⟩ | ⟨act, e, rfl, rfl, hact⟩
  swap
  · cases hact
    exact ⟨_, [], rfl, rfl, by simp⟩
  refine ⟨act, rest, rfl, by cases hact; rfl, ?_⟩
  rcases (Prog.runs_perform_bind _ _ _ _).mp hpost with ⟨c, post, rest, rfl, hc, hret⟩ | ⟨c, e, rfl, rfl, hc⟩
  · obtain ⟨rfl, -⟩ := (Prog.runs_ret _ _ _).mp hret
    cases hc
    simp [Call.scales, Call.event]
  · cases hc
    simp [Call.scales, Call.event]

theorem rollBack_calls (s : Snapshot) (action : ScaleAction) (eventId : PyStr) (result : List (PyStr × Json))
    (e : PyExc) (calls : List (Call cfg)) (out : Except PyExc (List (PyStr × Json)))
    (h : (rollBack s action eventId result e).Runs (Called cfg) calls out) :
    ∃ act rest append event, calls = act :: (rest ++ [append]) ∧ act.scales = some s.replicas ∧
      (∀ c ∈ rest, c.scales = none ∧ c.event = none) ∧ append.event = some event ∧ phaseIs "ROLLBACK" event := by
  rcases (Prog.runs_bind _ _ _ _).mp h with ⟨outcome, first, rest, rfl, hfirst, hnow⟩ | ⟨e', rfl, hfirst⟩
  swap
  · obtain ⟨_, h, -⟩ := (Prog.runs_attempt _ _ _).mp hfirst
    cases h
  obtain ⟨outcome', -, hrestore⟩ := (Prog.runs_attempt _ _ _).mp hfirst
  obtain ⟨act, rest, rfl, hact, hrest⟩ := restore_calls s first outcome' hrestore
  rcases (Prog.runs_perform_bind _ _ _ _).mp hnow with ⟨n, now, _, rfl, hn, happend⟩ | ⟨n, e', rfl, rfl, hn⟩
  swap
  · exact (utcNow_returns n e' hn).elim
  have hn' : n.scales = none ∧ n.event = none := by
    cases hn
    exact ⟨rfl, rfl⟩
  have hrest' : ∀ c ∈ rest ++ [n], c.scales = none ∧ c.event = none := by
    rw [List.forall_mem_append]
    exact ⟨hrest, by simpa using hn'⟩
  have hcalls : ∀ a : Call cfg, act :: rest ++ n :: [a] = act :: ((rest ++ [n]) ++ [a]) := by simp
  rcases (Prog.runs_perform_bind _ _ _ _).mp happend with ⟨a, _, _, rfl, ha, hret⟩ | ⟨a, e', rfl, rfl, ha⟩
  · obtain ⟨rfl, -⟩ := (Prog.runs_ret _ _ _).mp hret
    cases ha
    exact ⟨act, rest ++ [n], _, _, hcalls _, hact, hrest', rfl, rfl⟩
  · cases ha
    exact ⟨act, rest ++ [n], _, _, hcalls _, hact, hrest', rfl, rfl⟩

-- The calls of an action, from the first call of `scale_worker` on.
inductive Acted (replicas target : Int) : List (Call cfg) → Prop
  | kept (calls : List (Call cfg)) (hattempt : Attempted target calls false) : Acted replicas target calls
  | restored (calls rest : List (Call cfg)) (act append : Call cfg) (event : List (PyStr × Json))
      (hattempt : Attempted target calls true) (hact : act.scales = some replicas)
      (hrest : ∀ c ∈ rest, c.scales = none ∧ c.event = none) (hevent : append.event = some event)
      (hphase : phaseIs "ROLLBACK" event) : Acted replicas target (calls ++ act :: (rest ++ [append]))

theorem actOn_calls (allowActions allowScaleDown : Bool) (s : Snapshot) (action : Option ScaleAction)
    (eventId : PyStr) (event : List (PyStr × Json)) (calls : List (Call cfg))
    (out : Except PyExc (List (PyStr × Json)))
    (h : (actOn allowActions allowScaleDown s action eventId event).Runs (Called cfg) calls out) :
    calls = [] ∨ ∃ action', action = some action' ∧ allowActions = true ∧
      (action' = .scaleDownWorkers → allowScaleDown = true) ∧ Acted s.replicas (target s action) calls := by
  cases action with
  | none => exact .inl ((Prog.runs_ret _ _ _).mp h).1
  | some action =>
      simp only [actOn] at h
      split at h
      · exact .inl ((Prog.runs_ret _ _ _).mp h).1
      · rename_i hallowed
        have hdown : action = .scaleDownWorkers → allowScaleDown = true := by
          intro hdown
          by_contra hno
          exact hallowed (.inr ⟨hdown, by simpa using hno⟩)
        refine .inr ⟨action, rfl, by by_contra hno; exact hallowed (.inl (by simpa using hno)), hdown, ?_⟩
        rcases (Prog.runs_catching _ _ _ _).mp h with ⟨a, rfl, hrun⟩ | ⟨e, first, rest, rfl, hfirst, hrest⟩
        · exact .kept calls (actAndVerify_attempted s action eventId event calls _ hrun)
        · obtain ⟨act, rest, append, event', rfl, hact, hrest, hevent, hphase⟩ :=
            rollBack_calls s action eventId event e rest out hrest
          exact .restored first rest act append event'
            (actAndVerify_attempted s action eventId event first _ hfirst) hact hrest hevent hphase

end Acting

section Cycle

-- A decision with this target is on record.
def DecisionAppended (target : Int) (calls : List (Call cfg)) : Prop :=
  ∃ c ∈ calls, ∃ event, c.appended = some event ∧ phaseIs "DECISION" event ∧
    Json.lookup (py "target_replicas") event = some (.int target)

-- An action is one step within the limits.
theorem target_of_decide (s : Snapshot) (lowSamples : Nat) (action : ScaleAction)
    (h : (decide s lowSamples).1 = some action) :
    minReplicas ≤ s.replicas ∧ s.replicas ≤ maxReplicas ∧ minReplicas ≤ target s (some action) ∧
      target s (some action) ≤ maxReplicas := by
  have hdecision := decide_decision s lowSamples
  rw [h] at hdecision
  generalize (decide s lowSamples).2.1 = next at hdecision
  cases hdecision with
  | up hmin hmax =>
      simp only [target, minReplicas, maxReplicas] at *
      omega
  | down hlow hmin hmax hcount =>
      simp only [target, minReplicas, maxReplicas] at *
      omega

theorem decisionEvent_fields (eventId : PyStr) (now : Audit.UtcTime) (project : PyStr) (s : Snapshot)
    (action : Option ScaleAction) (reason : PyStr) (allowActions allowScaleDown : Bool) :
    phaseIs "DECISION" (decisionEvent eventId now project s action reason allowActions allowScaleDown) ∧
      Json.lookup (py "target_replicas")
        (decisionEvent eventId now project s action reason allowActions allowScaleDown) =
          some (.int (target s action)) := ⟨rfl, rfl⟩

theorem decideAndAct_calls (allowActions allowScaleDown : Bool) (s : Snapshot) (calls : List (Call cfg))
    (out : Except PyExc (List (PyStr × Json)))
    (h : (decideAndAct cfg allowActions allowScaleDown s).Runs (Called cfg) calls out) :
    (∀ x ∈ calls, x.scales = none) ∨ ∃ before lowSamples action acted, calls = before ++ acted ∧
      (∀ x ∈ before, x.scales = none) ∧ (decide s lowSamples).1 = some action ∧
      DecisionAppended (target s (some action)) before ∧ allowActions = true ∧
      (action = .scaleDownWorkers → allowScaleDown = true) ∧
      Acted s.replicas (target s (some action)) acted := by
  rcases (Prog.runs_perform_bind _ _ _ _).mp h with ⟨r, low, rest, rfl, hr, hwrite⟩ | ⟨r, e, rfl, rfl, hr⟩
  swap
  · cases hr
    exact .inl (by simp [Call.scales])
  have hr' : r.scales = none := by
    cases hr
    rfl
  rcases (Prog.runs_perform_bind _ _ _ _).mp hwrite with ⟨w, _, rest, rfl, hw, hrecord⟩ | ⟨w, e, rfl, rfl, hw⟩
  swap
  · cases hw
    exact .inl (List.forall_mem_cons.mpr ⟨hr', by simp [Call.scales]⟩)
  have hw' : w.scales = none := by
    cases hw
    rfl
  have hstart : ∀ x ∈ [r, w], x.scales = none := by simp [hr', hw']
  rcases (Prog.runs_bind _ _ _ _).mp hrecord with ⟨⟨eventId, event⟩, first, rest, rfl, hfirst, hact⟩ | ⟨e, rfl, hfirst⟩
  swap
  · have hquiet := recordDecision_records _ _ _ _ _ _ _ hfirst
    exact .inl (List.forall_mem_append.mpr ⟨hstart, fun x hx => (hquiet x hx).1⟩)
  have hquiet := recordDecision_records _ _ _ _ _ _ _ hfirst
  have hbefore : ∀ x ∈ [r, w] ++ first, x.scales = none :=
    List.forall_mem_append.mpr ⟨hstart, fun x hx => (hquiet x hx).1⟩
  obtain ⟨d, hd, now, happended, hevent⟩ := recordDecision_appended _ _ _ _ _ _ _ _ hfirst
  rcases actOn_calls _ _ _ _ _ _ _ _ hact with rfl | ⟨action, haction, hallow, hdown, hacted⟩
  · rw [List.append_nil]
    exact .inl hbefore
  · refine .inr ⟨[r, w] ++ first, low, action, rest, by simp, hbefore, haction, ?_, hallow, hdown, ?_⟩
    · have hfields := decisionEvent_fields eventId now cfg.projectName s (decide s low).1 (decide s low).2.2
        allowActions allowScaleDown
      rw [← haction]
      exact ⟨d, List.mem_append_right _ hd, event, happended, hevent ▸ hfields.1, hevent ▸ hfields.2⟩
    · rw [← haction]
      exact hacted

-- Either no call scales, or the cycle acts on its recorded decision.
theorem cycle_calls (c : Cycle cfg) :
    (∀ x ∈ c.calls, x.scales = none) ∨ ∃ o s before lowSamples action acted, c.calls = o :: (before ++ acted) ∧
      o.observed = some s ∧ (∀ x ∈ o :: before, x.scales = none) ∧ (decide s lowSamples).1 = some action ∧
      DecisionAppended (target s (some action)) before ∧ c.allowActions = true ∧
      (action = .scaleDownWorkers → c.allowScaleDown = true) ∧
      Acted s.replicas (target s (some action)) acted := by
  obtain ⟨allowActions, allowScaleDown, calls, outcome, runs⟩ := c
  simp only [runCycle] at runs ⊢
  split at runs
  swap
  · obtain ⟨rfl, -⟩ := (Prog.runs_raise _ _ _).mp runs
    exact .inl (by simp)
  rcases (Prog.runs_bind _ _ _ _).mp runs with ⟨observed, first, rest, rfl, hfirst, hrest⟩ | ⟨e, rfl, hfirst⟩
  swap
  · obtain ⟨_, h, -⟩ := (Prog.runs_attempt _ _ _).mp hfirst
    cases h
  obtain ⟨observed', hobserved, hcollect⟩ := (Prog.runs_attempt _ _ _).mp hfirst
  obtain rfl := Except.ok.inj hobserved
  obtain ⟨o, rfl, ho⟩ := (Prog.runs_perform _ _ _).mp hcollect
  have hstart : o.scales = none := by
    cases ho
    rfl
  cases observed with
  | error e =>
      have hquiet : ∀ x ∈ rest, x.scales = none := by
        dsimp only at hrest
        split at hrest
        · exact fun x hx => (recordNoData_records _ _ _ hrest x hx).1
        · obtain ⟨rfl, -⟩ := (Prog.runs_raise _ _ _).mp hrest
          simp
      exact .inl (List.forall_mem_cons.mpr ⟨hstart, hquiet⟩)
  | ok s =>
      have hobserved : o.observed = some s := by
        cases ho
        rfl
      rcases decideAndAct_calls allowActions allowScaleDown s rest outcome hrest with hquiet | ⟨before, low, action,
        acted, rfl, hbefore, hacted⟩
      · exact .inl (List.forall_mem_cons.mpr ⟨hstart, hquiet⟩)
      · exact .inr ⟨o, s, before, low, action, acted, rfl, hobserved,
          List.forall_mem_cons.mpr ⟨hstart, hbefore⟩, hacted⟩

end Cycle

end V91Core.Control
