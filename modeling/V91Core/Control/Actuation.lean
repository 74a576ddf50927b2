import V91Core.Control.Machine

namespace V91Core.Control

open V91Core.Python V91Core.Effect V91Core.Audit

variable {cfg : Config}

-- The operation has failed. The removal of a lock file that is gone does not count.
def Fault (step : SysStep) : Prop :=
  ∃ e, step.answer = .error e ∧ ¬ (step.op = .audit .unlinkLock ∧ e = .fileNotFound)

-- The record can be serialised and no file operation of its append fails. In
-- particular no other process holds the audit lock.
def Call.Unhindered (c : Call cfg) : Prop :=
  (∀ event, c.event = some event → ∃ line, eventLine cfg.rt (.obj event) = .ok line) ∧
    ∀ step ∈ c.steps, ¬ Fault step

theorem unhindered_iff (c : Call cfg) (event : List (PyStr × Json)) (hevent : c.event = some event) :
    c.Unhindered ↔ c.appended = some event := by
  obtain ⟨op, steps, r, runs⟩ := c
  cases op with
  | appendAudit event' =>
      obtain rfl : event' = event := Option.some.inj hevent
      have hrun := (Prog.runs_lift _ _ _ _ _).mp runs
      have happended : (∃ a, r = .ok a) ↔
          (Call.appended ⟨.appendAudit event', steps, r, runs⟩ : Option _) = some event' := by
        cases r with
        | ok a => simp [Call.appended]
        | error e => simp [Call.appended]
      rw [← happended]
      have hfault : ∀ (step : SysStep) (op : AuditOp) (r : Except PyExc op.Res),
          (∃ r', r = r'.map (fun b => b) ∧ SysAns step (.audit op) r') → (Fault step ↔ Fails op r) := by
        rintro step op _ ⟨r', rfl, hans⟩
        cases hans
        cases r' with
        | ok b => simp [Fault, Fails, Except.map]
        | error e => simp [Fault, Fails, Except.map]
      constructor
      · rintro ⟨hline, hsteps⟩
        obtain ⟨line, hline⟩ := hline event' rfl
        exact (appendAudit_returnsUnless hfault _ _ _ _ line hline steps r hrun).mpr hsteps
      · rintro ⟨a, rfl⟩
        obtain ⟨line, hline, -⟩ := line_of_appended _ _ _ _ _ hrun
        refine ⟨fun event hevent => ⟨line, ?_⟩, ?_⟩
        · obtain rfl : event' = event := Option.some.inj hevent
          exact hline
        · exact (appendAudit_returnsUnless hfault _ _ _ _ line hline steps _ hrun).mp ⟨a, rfl⟩
  | _ => cases hevent

-- The calls of a cycle from the first call of `scale_worker` on.
def Cycle.acting (c : Cycle cfg) : List (Call cfg) := c.calls.dropWhile fun x => x.scales.isNone

def Terminal (event : List (PyStr × Json)) : Prop := phaseIs "VERIFY" event ∨ phaseIs "ROLLBACK" event

-- An action that the post-action snapshot verifies is kept, and every action has
-- a terminal record.
def ActionKept (c : Cycle cfg) : Prop :=
  ∀ act rest target, c.acting = act :: rest → act.scales = some target →
    (Verified target act rest → ∀ x ∈ rest, x.scales = none) ∧
      ∃ append ∈ rest, ∃ event, append.appended = some event ∧ Terminal event

-- No append that follows the call of `scale_worker` is hindered.
def AppendsUnhindered (c : Cycle cfg) : Prop :=
  ∀ append ∈ c.acting, ∀ event, append.event = some event → append.Unhindered

theorem event_of_appended (c : Call cfg) (event : List (PyStr × Json)) (h : c.appended = some event) :
    c.event = some event := by
  obtain ⟨op, steps, r, runs⟩ := c
  cases op with
  | appendAudit event' =>
      cases r with
      | ok a => exact h
      | error e => cases h
  | _ => cases h

theorem scales_of_event (c : Call cfg) (event : List (PyStr × Json)) (h : c.event = some event) :
    c.scales = none := by
  obtain ⟨op, steps, r, runs⟩ := c
  cases op with
  | appendAudit event' => rfl
  | _ => cases h

theorem event_of_scales (c : Call cfg) (replicas : Int) (h : c.scales = some replicas) : c.event = none := by
  cases hevent : c.event with
  | none => rfl
  | some event =>
      rw [scales_of_event c event hevent] at h
      cases h

theorem Acted.head {replicas target : Int} {calls : List (Call cfg)} (h : Acted replicas target calls) :
    ∃ act rest, calls = act :: rest ∧ act.scales = some target := by
  have hattempt : ∀ (calls : List (Call cfg)) (raised : Bool), Attempted target calls raised →
      ∃ act rest, calls = act :: rest ∧ act.scales = some target := by
    intro calls raised h
    cases h with
    | unverified act rest hact => exact ⟨act, rest, rfl, hact⟩
    | unrecorded act append rest event hact => exact ⟨act, rest ++ [append], rfl, hact⟩
    | recorded act append rest event hact => exact ⟨act, rest ++ [append], rfl, hact⟩
  cases h with
  | kept _ h => exact hattempt calls _ h
  | restored calls rest act append event h =>
      obtain ⟨act', rest', rfl, hact'⟩ := hattempt calls _ h
      exact ⟨act', rest' ++ act :: (rest ++ [append]), rfl, hact'⟩

theorem dropWhile_scales (before acted : List (Call cfg)) (hbefore : ∀ x ∈ before, x.scales = none)
    (act : Call cfg) (rest : List (Call cfg)) (hacted : acted = act :: rest) (target : Int)
    (hact : act.scales = some target) : (before ++ acted).dropWhile (fun x => x.scales.isNone) = acted := by
  rw [List.dropWhile_append_of_pos fun x hx => by simp [hbefore x hx], hacted]
  exact List.dropWhile_cons_of_neg (by simp [hact])

-- The calls from the first call of `scale_worker` on, if there is one.
theorem acting_cases (c : Cycle cfg) :
    c.acting = [] ∨ ∃ replicas target, Acted replicas target c.acting := by
  rcases cycle_calls c with hquiet | ⟨o, s, before, low, action, acted, hcalls, -, hbefore, -, -, -, -, hacted⟩
  · exact .inl (List.dropWhile_eq_nil_iff.mpr fun x hx => by simp [hquiet x hx])
  · obtain ⟨act, rest, hhead, hact⟩ := hacted.head
    have hacting : c.acting = acted := by
      rw [Cycle.acting, hcalls]
      exact dropWhile_scales (o :: before) acted hbefore act rest hhead _ hact
    exact .inr ⟨_, _, hacting ▸ hacted⟩

theorem verified_action_kept_iff (c : Cycle cfg) : ActionKept c ↔ AppendsUnhindered c := by
  unfold ActionKept AppendsUnhindered
  rcases acting_cases c with hnone | ⟨replicas, target, hacted⟩
  · rw [hnone]
    simp
  generalize c.acting = calls at hacted ⊢
  cases hacted with
  | kept _ hattempt =>
      cases hattempt with
      | recorded act append rest event hact hverified hrest hphase happended =>
          have hevent := event_of_appended append event happended
          refine iff_of_true ?_ ?_
          · rintro act' rest' target' hcalls -
            obtain ⟨rfl, rfl⟩ := List.cons_eq_cons.mp hcalls
            refine ⟨fun _ => ?_, append, by simp, event, happended, .inl hphase⟩
            rw [List.forall_mem_append]
            exact ⟨fun x hx => (hrest x hx).1, by simpa using scales_of_event append event hevent⟩
          · rw [List.forall_mem_cons, List.forall_mem_append]
            refine ⟨fun event' h => ?_, fun x hx event' h => ?_, ?_⟩
            · rw [event_of_scales act target hact] at h
              cases h
            · rw [(hrest x hx).2] at h
              cases h
            · rintro x hx event' h
              obtain rfl := List.mem_singleton.mp hx
              exact (unhindered_iff x event hevent).mpr happended
  | restored calls rest act append event hattempt hact hrest hevent hphase =>
      cases hattempt with
      | unverified act' rest' hact' hverified hrest' =>
          have honly : ∀ x ∈ act' :: rest' ++ act :: (rest ++ [append]), ∀ e, x.event = some e → x = append := by
            simp only [List.mem_append, List.mem_cons, List.not_mem_nil, or_false]
            rintro x ((rfl | hx) | rfl | hx | rfl) e he
            · rw [event_of_scales x target hact'] at he
              cases he
            · rw [(hrest' x hx).2] at he
              cases he
            · rw [event_of_scales x replicas hact] at he
              cases he
            · rw [(hrest x hx).2] at he
              cases he
            · rfl
          have happend : append ∈ rest' ++ act :: (rest ++ [append]) := by simp
          constructor
          · intro hkept x hx e he
            obtain rfl := honly x hx e he
            obtain ⟨-, y, hy, event', hy', -⟩ := hkept act' _ target rfl hact'
            obtain rfl := honly y (List.mem_cons_of_mem _ hy) event' (event_of_appended y event' hy')
            exact (unhindered_iff y event' (event_of_appended y event' hy')).mpr hy'
          · intro hclear x rest'' target' hcalls hx
            obtain ⟨rfl, rfl⟩ := List.cons_eq_cons.mp hcalls
            obtain rfl : target = target' := Option.some.inj (hact'.symm.trans hx)
            have hfree := hclear append (List.mem_cons_of_mem _ happend) event hevent
            exact ⟨fun h => (hverified _ h).elim, append, happend, event,
              (unhindered_iff append event hevent).mp hfree, .inr hphase⟩
      | unrecorded act' append' rest' event' hact' hverified hrest' hevent' hphase' hfailed =>
          refine iff_of_false ?_ ?_
          · intro hkept
            obtain ⟨hquiet, -⟩ := hkept act' _ target rfl hact'
            have hscales := hquiet (by simpa using hverified _) act (by simp)
            rw [hscales] at hact
            cases hact
          · intro hclear
            have hfree := hclear append' (by simp) event' hevent'
            rw [(unhindered_iff append' event' hevent').mp hfree] at hfailed
            cases hfailed

-- Another process holds the audit lock when the record of the verified action is
-- to be appended.
def lockedMachine : Machine :=
  ⟨sampleTime, [.ok (workers busyStats 1), .ok (workers busyStats 2), .ok (workers busyStats 1)],
    [false, true, false], ⟨none, []⟩⟩

def lockedCycle : Cycle sampleConfig := lockedMachine.cycle sampleConfig true false

-- The argument of `scale_worker`, whether the call returned, and the counts observed.
def Call.summary (c : Call cfg) : Option Int × Bool × Option (Int × Int) :=
  (c.scales, match c.answer with
    | .ok _ => true
    | .error _ => false, c.observed.map fun s => (s.replicas, s.running))

theorem verified_of_summary (target : Int) (act post : Call cfg) (rest : List (Call cfg))
    (hact : act.summary.2.1 = true) (hpost : post.summary.2.2 = some (target, target)) :
    Verified target act (post :: rest) := by
  refine ⟨?_, ?_⟩
  · simp only [Call.summary] at hact
    split at hact
    · rename_i r hr
      exact ⟨r, hr⟩
    · cases hact
  · obtain ⟨s, hs, hcounts⟩ := Option.map_eq_some_iff.mp hpost
    obtain ⟨hreplicas, hrunning⟩ := Prod.mk.inj hcounts
    exact ⟨post, rest, s, rfl, hs, hreplicas, hrunning⟩

theorem lockedCycle_acting :
    lockedCycle.acting.map Call.summary =
      [(some 2, true, none), (none, true, some (2, 2)), (none, true, none), (none, false, none),
        (some 1, true, none), (none, true, some (1, 1)), (none, true, none), (none, true, none)] := by
  decide +kernel

theorem verified_action_rolled_back : ∃ (cfg : Config) (c : Cycle cfg), ¬ ActionKept c := by
  refine ⟨sampleConfig, lockedCycle, fun hkept => ?_⟩
  obtain ⟨act, tail, hacting, hact, htail⟩ := List.map_eq_cons_iff.mp lockedCycle_acting
  obtain ⟨post, rest, rfl, hpost, hrest⟩ := List.map_eq_cons_iff.mp htail
  have hverified := verified_of_summary 2 act post rest (by rw [hact]) (by rw [hpost])
  obtain ⟨hquiet, -⟩ := hkept act _ 2 hacting (congrArg Prod.fst hact)
  have hback : (some 1, true, none) ∈ rest.map Call.summary := by
    rw [hrest]
    decide
  obtain ⟨back, hmem, hback⟩ := List.mem_map.mp hback
  have hscales := hquiet hverified back (List.mem_cons_of_mem _ hmem)
  exact absurd (hscales.symm.trans (congrArg Prod.fst hback)) (by decide)

-- The first call of `scale_worker` did not end with a snapshot that shows the target.
def VerificationFailed (target : Int) (calls : List (Call cfg)) : Prop :=
  ∃ first act rest, calls = first ++ act :: rest ∧ act.scales = some target ∧ ¬ Verified target act rest

-- What a call of `scale_worker` needs: the opt-in flags, a record of the decision
-- and, one step from the observed count or back to it, a count within the limits.
def Authorised (c : Cycle cfg) : Prop :=
  ∀ before x replicas, before ++ [x] <+: c.calls → x.scales = some replicas →
    c.allowActions = true ∧ minReplicas ≤ replicas ∧ replicas ≤ maxReplicas ∧
      scaleWorker replicas = perform (.composeUp replicas) ∧
      ∃ s target, before.head?.bind Call.observed = some s ∧ DecisionAppended target before ∧
        (replicas = target ∧ (replicas = s.replicas + 1 ∨ replicas = s.replicas - 1 ∧ c.allowScaleDown = true) ∨
          replicas = s.replicas ∧ VerificationFailed target before)

-- The append of the record of a verified action is not hindered.
def VerifyUnhindered (c : Cycle cfg) : Prop :=
  ∀ append ∈ c.acting, ∀ event, append.event = some event → phaseIs "VERIFY" event → append.Unhindered

section Prefixes

variable {α : Type} {p : α → Prop}

theorem mem_of_initial (before calls : List α) (x : α) (h : before ++ [x] <+: calls) : x ∈ calls :=
  h.subset (by simp)

-- Where a marked element of a list can stand that has its first one at `act`.
theorem initial_split (pre tail before : List α) (act x : α) (hpre : ∀ y ∈ pre, ¬ p y) (hx : p x)
    (h : before ++ [x] <+: pre ++ act :: tail) :
    (before = pre ∧ x = act) ∨ ∃ later, before = pre ++ act :: later ∧ later ++ [x] <+: tail := by
  induction pre generalizing before with
  | nil =>
      cases before with
      | nil => exact .inl ⟨rfl, (List.cons_prefix_cons.mp h).1⟩
      | cons b before =>
          obtain ⟨rfl, hrest⟩ := List.cons_prefix_cons.mp h
          exact .inr ⟨before, rfl, hrest⟩
  | cons y pre ih =>
      cases before with
      | nil =>
          obtain ⟨rfl, -⟩ := List.cons_prefix_cons.mp h
          exact absurd hx (hpre x List.mem_cons_self)
      | cons b before =>
          obtain ⟨rfl, hrest⟩ := List.cons_prefix_cons.mp h
          rcases ih before (fun z hz => hpre z (List.mem_cons_of_mem _ hz)) hrest with ⟨rfl, rfl⟩ | ⟨later, rfl, hlater⟩
          · exact .inl ⟨rfl, rfl⟩
          · exact .inr ⟨later, rfl, hlater⟩

end Prefixes

theorem not_verify_of_rollback (event : List (PyStr × Json)) (h : phaseIs "ROLLBACK" event) :
    ¬ phaseIs "VERIFY" event := by
  intro hverify
  rw [phaseIs, h] at hverify
  exact absurd hverify (by decide)

-- An action scales once, or twice when its `try` block has raised: because it could
-- not be verified, or because its record could not be appended.
theorem Acted.split {replicas target : Int} {calls : List (Call cfg)} (h : Acted replicas target calls) :
    ∃ act rest, act.scales = some target ∧ (∀ y ∈ rest, y.scales = none) ∧
      (calls = act :: rest ∧ (∀ a ∈ act :: rest, ∀ event, a.event = some event → a.Unhindered) ∨
        ∃ back more, calls = act :: (rest ++ back :: more) ∧ back.scales = some replicas ∧
          (∀ y ∈ more, y.scales = none) ∧
          ((¬ Verified target act rest ∧ ∀ a ∈ calls, ∀ event, a.event = some event → ¬ phaseIs "VERIFY" event) ∨
            Verified target act rest ∧ ∃ append ∈ rest, ∃ event, append.event = some event ∧
              phaseIs "VERIFY" event ∧ ¬ append.Unhindered)) := by
  cases h with
  | kept _ hattempt =>
      cases hattempt with
      | recorded act append rest event hact hverified hrest hphase happended =>
          have hevent := event_of_appended append event happended
          refine ⟨act, rest ++ [append], hact, ?_, .inl ⟨rfl, ?_⟩⟩
          · rw [List.forall_mem_append]
            exact ⟨fun y hy => (hrest y hy).1, by simpa using scales_of_event append event hevent⟩
          · rw [List.forall_mem_cons, List.forall_mem_append]
            refine ⟨fun event' h => ?_, fun x hx event' h => ?_, ?_⟩
            · rw [event_of_scales act target hact] at h
              cases h
            · rw [(hrest x hx).2] at h
              cases h
            · rintro x hx event' h
              obtain rfl := List.mem_singleton.mp hx
              exact (unhindered_iff x event hevent).mpr happended
  | restored calls rest back append event hattempt hback hrest hevent hphase =>
      have hmore : ∀ y ∈ rest ++ [append], y.scales = none := by
        rw [List.forall_mem_append]
        exact ⟨fun y hy => (hrest y hy).1, by simpa using scales_of_event append event hevent⟩
      cases hattempt with
      | unverified act rest' hact hverified hrest' =>
          refine ⟨act, rest', hact, fun y hy => (hrest' y hy).1, .inr ⟨back, rest ++ [append], rfl, hback,
            hmore, .inl ?_⟩⟩
          refine ⟨by simpa using hverified [], ?_⟩
          simp only [List.cons_append, List.mem_cons, List.mem_append, List.not_mem_nil, or_false]
          rintro a (rfl | ha | rfl | ha | rfl) e he
          · rw [event_of_scales a target hact] at he
            cases he
          · rw [(hrest' a ha).2] at he
            cases he
          · rw [event_of_scales a replicas hback] at he
            cases he
          · rw [(hrest a ha).2] at he
            cases he
          · obtain rfl : event = e := Option.some.inj (hevent.symm.trans he)
            exact not_verify_of_rollback event hphase
      | unrecorded act append' rest' event' hact hverified hrest' hevent' hphase' hfailed =>
          refine ⟨act, rest' ++ [append'], hact, ?_, .inr ⟨back, rest ++ [append], rfl, hback, hmore, .inr ?_⟩⟩
          · rw [List.forall_mem_append]
            exact ⟨fun y hy => (hrest' y hy).1, by simpa using scales_of_event append' event' hevent'⟩
          · refine ⟨hverified [append'], append', by simp, event', hevent', hphase', fun hfree => ?_⟩
            rw [(unhindered_iff append' event' hevent').mp hfree] at hfailed
            cases hfailed

-- A target is one step from the observed count, and down only with the second opt-in.
theorem target_step (s : Snapshot) (action : ScaleAction) (allowScaleDown : Bool)
    (hdown : action = .scaleDownWorkers → allowScaleDown = true) :
    target s (some action) = s.replicas + 1 ∨ target s (some action) = s.replicas - 1 ∧ allowScaleDown = true := by
  cases action with
  | scaleUpWorkers => exact .inl rfl
  | scaleDownWorkers => exact .inr ⟨rfl, hdown rfl⟩

theorem scaleWorker_of_range (n : Int) (hmin : minReplicas ≤ n) (hmax : n ≤ maxReplicas) :
    scaleWorker n = perform (.composeUp n) := if_pos ⟨hmin, hmax⟩

theorem not_initial (calls later : List (Call cfg)) (x : Call cfg) (n : Int)
    (hcalls : ∀ y ∈ calls, y.scales = none) (hx : x.scales = some n) : ¬ later ++ [x] <+: calls := by
  intro hlater
  rw [hcalls x (mem_of_initial later calls x hlater)] at hx
  cases hx

theorem scales_initial_split (pre tail before : List (Call cfg)) (act x : Call cfg) (n : Int)
    (hpre : ∀ y ∈ pre, y.scales = none) (hx : x.scales = some n) (h : before ++ [x] <+: pre ++ act :: tail) :
    (before = pre ∧ x = act) ∨ ∃ later, before = pre ++ act :: later ∧ later ++ [x] <+: tail :=
  initial_split (p := fun y : Call cfg => y.scales.isSome = true) pre tail before act x
    (fun y hy => by simp [hpre y hy]) (by simp [hx]) h

theorem authorised_iff (c : Cycle cfg) : Authorised c ↔ VerifyUnhindered c := by
  rcases cycle_calls c with hquiet | ⟨o, s, before₀, low, action, acted, hcalls, hs, hpre, hdecide, hdecision, hallow,
    hdown, hacted⟩
  · have hacting : c.acting = [] := List.dropWhile_eq_nil_iff.mpr fun x hx => by simp [hquiet x hx]
    refine iff_of_true ?_ ?_
    · exact fun before x n hinitial hx => (not_initial _ _ x n hquiet hx hinitial).elim
    · rw [VerifyUnhindered, hacting]
      simp
  obtain ⟨hrmin, hrmax, htmin, htmax⟩ := target_of_decide s low action hdecide
  have hstep := target_step s action c.allowScaleDown hdown
  obtain ⟨act, rest, hact, hrest, hshape⟩ := hacted.split
  generalize htarget : target s (some action) = t at *
  set pre := o :: before₀ with hpre_def
  have hstart : ∀ more, (pre ++ more).head?.bind Call.observed = some s := fun more => hs
  have hrecord : ∀ more, DecisionAppended t (pre ++ more) := by
    rintro more
    obtain ⟨d, hd, hrest⟩ := hdecision
    exact ⟨d, List.mem_append_left _ (List.mem_cons_of_mem _ hd), hrest⟩
  have hfirst : ∀ x n, x = act → x.scales = some n →
      c.allowActions = true ∧ minReplicas ≤ n ∧ n ≤ maxReplicas ∧ scaleWorker n = perform (.composeUp n) ∧
        ∃ s target, pre.head?.bind Call.observed = some s ∧ DecisionAppended target pre ∧
          (n = target ∧ (n = s.replicas + 1 ∨ n = s.replicas - 1 ∧ c.allowScaleDown = true) ∨
            n = s.replicas ∧ VerificationFailed target pre) := by
    rintro x n rfl hx
    obtain rfl : t = n := Option.some.inj (hact.symm.trans hx)
    have hs' := hstart []
    have hd' := hrecord []
    rw [List.append_nil] at hs' hd'
    exact ⟨hallow, htmin, htmax, scaleWorker_of_range t htmin htmax, s, t, hs', hd', .inl ⟨rfl, hstep⟩⟩
  have hhead : ∃ tail, acted = act :: tail := by
    rcases hshape with ⟨h, -⟩ | ⟨back, more, h, -⟩
    · exact ⟨_, h⟩
    · exact ⟨_, h⟩
  obtain ⟨tail, htail⟩ := hhead
  have hacting : c.acting = acted := by
    rw [Cycle.acting, hcalls]
    exact dropWhile_scales pre acted hpre act tail htail t hact
  have hcalls' : c.calls = pre ++ acted := hcalls
  unfold Authorised VerifyUnhindered
  rw [hacting, hcalls']
  rcases hshape with ⟨rfl, hfree⟩ | ⟨back, more, rfl, hback, hmore, hverified⟩
  · refine iff_of_true ?_ fun a ha event hevent _ => hfree a ha event hevent
    intro before x n hinitial hx
    rcases scales_initial_split pre rest before act x n hpre hx hinitial with ⟨rfl, hxact⟩ | ⟨later, rfl, hlater⟩
    · exact hfirst x n hxact hx
    · exact (not_initial rest later x n hrest hx hlater).elim
  rcases hverified with ⟨hnot, hother⟩ | ⟨hyes, append, happend, event, hevent, hphase, hhindered⟩
  · refine iff_of_true ?_ fun a ha event hevent hphase => (hother a ha event hevent hphase).elim
    intro before x n hinitial hx
    rcases scales_initial_split pre _ before act x n hpre hx hinitial with ⟨rfl, hxact⟩ | ⟨later, rfl, hlater⟩
    · exact hfirst x n hxact hx
    rcases scales_initial_split rest more later back x n hrest hx hlater with ⟨rfl, rfl⟩ | ⟨later', rfl, hlater'⟩
    · obtain rfl : s.replicas = n := Option.some.inj (hback.symm.trans hx)
      exact ⟨hallow, hrmin, hrmax, scaleWorker_of_range _ hrmin hrmax, s, t, hstart _, hrecord _,
        .inr ⟨rfl, pre, act, later, rfl, hact, hnot⟩⟩
    · exact (not_initial more later' x n hmore hx hlater').elim
  · refine iff_of_false ?_ fun hfree => hhindered (hfree append (by simp [happend]) event hevent hphase)
    intro hauthorised
    have hinitial : (pre ++ act :: rest) ++ [back] <+: pre ++ act :: (rest ++ back :: more) :=
      ⟨more, by simp⟩
    obtain ⟨-, -, -, -, s', t', hs', -, ⟨-, hone⟩ | ⟨-, first, act', rest', heq, hact', hnot⟩⟩ :=
      hauthorised _ back s.replicas hinitial hback
    · obtain rfl : s = s' := Option.some.inj ((hstart _).symm.trans hs')
      omega
    · have hsplit : first ++ [act'] <+: pre ++ act :: rest := ⟨rest', by simp [heq]⟩
      rcases scales_initial_split pre rest first act act' t' hpre hact' hsplit with ⟨rfl, rfl⟩ | ⟨later, rfl, hlater⟩
      · obtain rfl : t = t' := Option.some.inj (hact.symm.trans hact')
        obtain rfl := List.cons_eq_cons.mp (List.append_cancel_left heq) |>.2
        exact hnot hyes
      · exact not_initial rest later act' t' hrest hact' hlater

-- Over a run of `run_cycle` calls.
theorem run_authorised_iff (run : List (Cycle cfg)) :
    (∀ c ∈ run, Authorised c) ↔ ∀ c ∈ run, VerifyUnhindered c :=
  forall₂_congr fun c _ => authorised_iff c

theorem lockedCycle_calls :
    lockedCycle.calls.map Call.summary =
      [(none, true, some (1, 1)), (none, true, none), (none, true, none), (none, true, none), (none, true, none),
        (none, true, none)] ++ lockedCycle.acting.map Call.summary := by
  decide +kernel

-- The second call goes back to one replica although the snapshot shows two.
theorem verified_action_reversed : ∃ (cfg : Config) (run : List (Cycle cfg)), ¬ ∀ c ∈ run, Authorised c := by
  refine ⟨sampleConfig, [lockedCycle], fun hall => ?_⟩
  have hauthorised := hall lockedCycle List.mem_cons_self
  obtain ⟨pre, acted, hcalls, hpre, hacted⟩ := List.map_eq_append_iff.mp lockedCycle_calls
  rw [lockedCycle_acting] at hacted
  obtain ⟨act, tail, rfl, hact, htail⟩ := List.map_eq_cons_iff.mp hacted
  obtain ⟨post, tail, rfl, hpost, htail⟩ := List.map_eq_cons_iff.mp htail
  obtain ⟨now, tail, rfl, hnow, htail⟩ := List.map_eq_cons_iff.mp htail
  obtain ⟨append, tail, rfl, happend, htail⟩ := List.map_eq_cons_iff.mp htail
  obtain ⟨back, tail, rfl, hback, -⟩ := List.map_eq_cons_iff.mp htail
  have hquiet : ∀ x ∈ pre, x.scales = none := by
    intro x hx
    have hmem := List.mem_map_of_mem (f := Call.summary) hx
    rw [hpre] at hmem
    have hfirst : ∀ y ∈ [(none, true, some (1, 1)), (none, true, none), (none, true, none), (none, true, none),
        (none, true, none), ((none, true, none) : Option Int × Bool × Option (Int × Int))], y.1 = none := by decide
    exact hfirst _ hmem
  have hrest : ∀ x ∈ [post, now, append], x.scales = none := by
    have hscales : ∀ (x : Call sampleConfig) y, x.summary = y → x.scales = y.1 := by
      rintro x y rfl
      rfl
    simp [hscales post _ hpost, hscales now _ hnow, hscales append _ happend]
  have hinitial : (pre ++ act :: [post, now, append]) ++ [back] <+: lockedCycle.calls := ⟨tail, by simp [hcalls]⟩
  obtain ⟨-, -, -, -, s, t, hs, -, ⟨-, hone⟩ | ⟨-, first, act', rest', heq, hact', hnot⟩⟩ :=
    hauthorised _ back 1 hinitial (congrArg Prod.fst hback)
  · obtain ⟨o, rest, rfl, ho, -⟩ := List.map_eq_cons_iff.mp hpre
    have hcounts : o.observed.map (fun s => (s.replicas, s.running)) = some (1, 1) :=
      congrArg (fun y => y.2.2) ho
    have hobserved : o.observed = some s := hs
    rw [hobserved] at hcounts
    have hone' : s.replicas = 1 := congrArg Prod.fst (Option.some.inj hcounts)
    omega
  · have hsplit : first ++ [act'] <+: pre ++ act :: [post, now, append] := ⟨rest', by simp [heq]⟩
    rcases scales_initial_split pre _ first act act' t hquiet hact' hsplit with ⟨rfl, rfl⟩ | ⟨later, rfl, hlater⟩
    · obtain rfl : 2 = t := Option.some.inj ((congrArg Prod.fst hact).symm.trans hact')
      obtain rfl := List.cons_eq_cons.mp (List.append_cancel_left heq) |>.2
      exact hnot (verified_of_summary 2 act' post _ (by rw [hact]) (by rw [hpost]))
    · exact not_initial _ later act' t hrest hact' hlater

end V91Core.Control
