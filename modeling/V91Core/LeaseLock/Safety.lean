import V91Core.Effect.Run
import V91Core.LeaseLock.Step

namespace V91Core.LeaseLock

open V91Core.Effect V91Core.Python

-- The manager after these calls.
def after (events : List Request) : LeaseLockManager := runFrom step LeaseLockManager.init events

-- The leases of this lock that the calls of `acquire` returned, in this order.
def granted (lock : PyStr) (events : List Request) : List Lease :=
  collect step (grantOf lock) LeaseLockManager.init events

section Tokens

variable (lock : PyStr)

theorem lastToken_step (m : LeaseLockManager) (r : Request) :
    m.lastToken lock ≤ (step m r).lastToken lock := by
  have h := lockStep m r lock
  generalize (step m r).leases lock = lease, (step m r).lastToken lock = token, grantOf lock m r = grant at h ⊢
  cases h <;> omega

theorem lastToken_grant (m : LeaseLockManager) (r : Request) (lease : Lease)
    (hgrant : grantOf lock m r = some lease) :
    lease.fencingToken = m.lastToken lock + 1 ∧ (step m r).lastToken lock = lease.fencingToken ∧
      (step m r).leases lock = some lease := by
  have h := lockStep m r lock
  rw [hgrant] at h
  generalize (step m r).leases lock = current, (step m r).lastToken lock = token at h ⊢
  cases h with
  | granted _ hlock htoken _ _ => exact ⟨htoken, htoken.symm, rfl⟩

-- No token below `bound` can be used any more.
def Above (bound : Int) (m : LeaseLockManager) : Prop :=
  bound ≤ m.lastToken lock ∧ ∀ lease, m.leases lock = some lease → bound ≤ lease.fencingToken

theorem above_step (bound : Int) (m : LeaseLockManager) (r : Request) (h : Above lock bound m) :
    Above lock bound (step m r) := by
  obtain ⟨hlast, hlease⟩ := h
  have hstep := lockStep m r lock
  unfold Above
  generalize (step m r).leases lock = current, (step m r).lastToken lock = token,
    grantOf lock m r = grant at hstep ⊢
  cases hstep with
  | idle => exact ⟨hlast, hlease⟩
  | interrupted => exact ⟨by omega, hlease⟩
  | granted lease _ htoken =>
      refine ⟨by omega, fun found hfound => ?_⟩
      obtain rfl := Option.some.inj hfound
      omega
  | renewed lease renewed hcurrent htoken =>
      refine ⟨hlast, fun found hfound => ?_⟩
      obtain rfl := Option.some.inj hfound
      rw [htoken]
      exact hlease lease hcurrent
  | released => exact ⟨hlast, nofun⟩

theorem above_grant (m : LeaseLockManager) (r : Request) (lease : Lease)
    (hgrant : grantOf lock m r = some lease) : Above lock lease.fencingToken (step m r) := by
  obtain ⟨-, hlast, hlease⟩ := lastToken_grant lock m r lease hgrant
  refine ⟨hlast.ge, fun found hfound => ?_⟩
  rw [hlease] at hfound
  obtain rfl := Option.some.inj hfound
  exact le_rfl

theorem granted_increasing (events : List Request) :
    (granted lock events).Pairwise fun old new => old.fencingToken < new.fencingToken := by
  apply collect_pairwise (fun _ _ => True) (fun m lease => lease.fencingToken ≤ m.lastToken lock)
  · intro m r lease _ hgrant
    exact (lastToken_grant lock m r lease hgrant).2.1.ge
  · intro m r lease _ hle
    exact hle.trans (lastToken_step lock m r)
  · intro m r old new _ hle hgrant
    have := (lastToken_grant lock m r new hgrant).1
    omega
  · exact EachStep.of_inv (fun _ => True) _ (fun _ _ _ => trivial) (fun _ _ _ => trivial) _ _ trivial

theorem above_granted (events : List Request) (lease : Lease) (hgranted : lease ∈ granted lock events) :
    Above lock lease.fencingToken (after events) := by
  refine collect_bound (fun _ _ => True) (fun m lease => Above lock lease.fencingToken m) ?_ ?_
    LeaseLockManager.init events ?_ lease hgranted
  · exact fun m r lease _ hgrant => above_grant lock m r lease hgrant
  · exact fun m r lease _ h => above_step lock _ m r h
  · exact EachStep.of_inv (fun _ => True) _ (fun _ _ _ => trivial) (fun _ _ _ => trivial) _ _ trivial

end Tokens

section Answers

variable (m : LeaseLockManager) (lock : PyStr)

theorem validateAction_unique (holder holder' : PyStr) (token token' : Int) (now : PyNum)
    (h : m.validateAction lock holder token now = true)
    (h' : m.validateAction lock holder' token' now = true) : holder = holder' ∧ token = token' := by
  obtain ⟨lease, hlease, -⟩ := (m.validateAction_eq_true _ _ _ _).mp h
  obtain ⟨lease', hlease', -⟩ := (m.validateAction_eq_true _ _ _ _).mp h'
  obtain ⟨hcurrent, rfl, rfl⟩ := (m.matchingLease_eq_some _ _ _ _).mp hlease
  obtain ⟨hcurrent', rfl, rfl⟩ := (m.matchingLease_eq_some _ _ _ _).mp hlease'
  obtain rfl := Option.some.inj (hcurrent.symm.trans hcurrent')
  exact ⟨rfl, rfl⟩

theorem matchingLease_above (bound token : Int) (holder : PyStr) (h : Above lock bound m)
    (hlt : token < bound) : m.matchingLease lock holder token = none := by
  cases hlease : m.matchingLease lock holder token with
  | none => rfl
  | some lease =>
      obtain ⟨hcurrent, -, htoken⟩ := (m.matchingLease_eq_some _ _ _ _).mp hlease
      have := h.2 lease hcurrent
      omega

theorem above_rejects (bound token : Int) (h : Above lock bound m) (hlt : token < bound) :
    (∀ holder now, m.validateAction lock holder token now = false) ∧
      (∀ holderId duration now, ∃ e, (m.renew (.str lock) holderId token duration now).1 = .error e) ∧
      m.isFenced lock token = true := by
  have hnone := fun holder => matchingLease_above m lock bound token holder h hlt
  refine ⟨fun holder now => ?_, fun holderId duration now => ?_, ?_⟩
  · rw [LeaseLockManager.validateAction, hnone]
  · rcases renew_cases m (.str lock) holderId token duration now with ⟨e, hcall⟩ |
      ⟨name, holder, lease, renewed, hlock, hlease, -⟩
    · exact ⟨e, by rw [hcall]⟩
    · obtain rfl := Json.str.inj hlock
      rw [hnone holder] at hlease
      cases hlease
  · rw [LeaseLockManager.isFenced_eq_true]
    have := h.1
    omega

end Answers

section Frame

variable (lock : PyStr)

-- The two managers know the same about this lock.
def Agree (m m' : LeaseLockManager) : Prop :=
  m.leases lock = m'.leases lock ∧ m.lastToken lock = m'.lastToken lock

theorem step_other (m : LeaseLockManager) (r : Request) (hne : r.lockId ≠ .str lock) :
    Agree lock (step m r) m := by
  cases r with
  | validateAction name holder token now => exact ⟨rfl, rfl⟩
  | isFenced name token => exact ⟨rfl, rfl⟩
  | acquire lockId holderId duration now =>
      simp only [Agree, step, call]
      rcases acquire_cases m lockId holderId duration now with ⟨e, -, hcall⟩ |
        ⟨name, holder, seconds, hargs, ⟨-, hcall⟩ | ⟨-, ⟨e, -, hcall⟩ | ⟨lease, -, -, -, hcall⟩⟩⟩
      · simp only [hcall, Prod.map, id, and_self]
      · simp only [hcall, Prod.map, id, and_self]
      all_goals
        have hname : lock ≠ name := by
          rintro rfl
          exact hne (requireRequest_eq_ok _ _ _ _ hargs).1
        simp only [hcall, Prod.map, id]
      · exact ⟨rfl, m.setLastToken_of_ne _ _ _ hname⟩
      · exact ⟨(m.setLastToken name _).setLease_leases_of_ne _ _ _ hname, m.setLastToken_of_ne _ _ _ hname⟩
  | renew lockId holderId token duration now =>
      simp only [Agree, step, call]
      rcases renew_cases m lockId holderId token duration now with ⟨e, hcall⟩ |
        ⟨name, holder, lease, renewed, hlock, -, -, hcall⟩
      · simp only [hcall, Prod.map, id, and_self]
      · have hname : lock ≠ name := by
          rintro rfl
          exact hne hlock
        simp only [hcall, Prod.map, id]
        exact ⟨m.setLease_leases_of_ne _ _ _ hname, rfl⟩
  | release lockId holderId token =>
      simp only [Agree, step, call]
      rcases release_cases m lockId holderId token with ⟨e, hcall, -⟩ |
        ⟨name, holder, lease, hargs, -, hcall⟩
      · simp only [hcall, Prod.map, id, and_self]
      · have hname : lock ≠ name := by
          rintro rfl
          exact hne (requireIds_eq_ok _ _ _ hargs).1
        simp only [hcall, Prod.map, id]
        exact ⟨m.setLease_leases_of_ne _ _ _ hname, rfl⟩

theorem call_agree (m m' : LeaseLockManager) (r : Request) (hlock : r.lockId = .str lock)
    (h : Agree lock m m') : (call m r).1 = (call m' r).1 ∧ Agree lock (step m r) (step m' r) := by
  obtain ⟨hlease, hlast⟩ := h
  have hmatching : ∀ holder token, m.matchingLease lock holder token = m'.matchingLease lock holder token :=
    fun holder token => by rw [LeaseLockManager.matchingLease, LeaseLockManager.matchingLease, hlease]
  have hheld : ∀ now, m.held lock now = m'.held lock now :=
    fun now => by rw [LeaseLockManager.held, LeaseLockManager.held, hlease]
  unfold Agree step
  cases r with
  | validateAction name holder token now =>
      obtain rfl := Json.str.inj hlock
      simp only [call, LeaseLockManager.validateAction, hmatching]
      exact ⟨trivial, hlease, hlast⟩
  | isFenced name token =>
      obtain rfl := Json.str.inj hlock
      simp only [call, LeaseLockManager.isFenced, hlast]
      exact ⟨trivial, hlease, trivial⟩
  | acquire lockId holderId duration now =>
      obtain rfl : lockId = .str lock := hlock
      simp only [call, LeaseLockManager.acquire]
      cases hargs : requireRequest (.str lock) holderId duration with
      | error e => exact ⟨rfl, hlease, hlast⟩
      | ok p =>
          obtain ⟨name, holder, seconds⟩ := p
          obtain rfl := Json.str.inj (requireRequest_eq_ok _ _ _ _ hargs).1
          simp only [hheld, hlast]
          by_cases hh : m'.held lock now = true
          · simp only [hh, if_true]
            exact ⟨rfl, hlease, hlast⟩
          · simp only [hh]
            cases now.add seconds with
            | error e => exact ⟨rfl, hlease, by simp [Prod.map]⟩
            | ok expiresAt => exact ⟨rfl, by simp [Prod.map], by simp [Prod.map]⟩
  | renew lockId holderId token duration now =>
      obtain rfl : lockId = .str lock := hlock
      simp only [call, LeaseLockManager.renew]
      cases hargs : requireRequest (.str lock) holderId duration with
      | error e => exact ⟨rfl, hlease, hlast⟩
      | ok p =>
          obtain ⟨name, holder, seconds⟩ := p
          obtain rfl := Json.str.inj (requireRequest_eq_ok _ _ _ _ hargs).1
          simp only [hmatching]
          cases m'.matchingLease lock holder token with
          | none => exact ⟨rfl, hlease, hlast⟩
          | some lease =>
              simp only
              split_ifs
              · exact ⟨rfl, hlease, hlast⟩
              · cases now.add seconds with
                | error e => exact ⟨rfl, hlease, hlast⟩
                | ok expiresAt => exact ⟨rfl, by simp [Prod.map], hlast⟩
  | release lockId holderId token =>
      obtain rfl : lockId = .str lock := hlock
      simp only [call, LeaseLockManager.release]
      cases hargs : requireIds (.str lock) holderId with
      | error e => exact ⟨rfl, hlease, hlast⟩
      | ok p =>
          obtain ⟨name, holder⟩ := p
          obtain rfl := Json.str.inj (requireIds_eq_ok _ _ _ hargs).1
          simp only [hmatching, hlease]
          split_ifs
          · exact ⟨rfl, hlease, hlast⟩
          · exact ⟨rfl, hlease, hlast⟩
          · exact ⟨rfl, by simp [Prod.map], hlast⟩

theorem Agree.trans {m m' m'' : LeaseLockManager} (h : Agree lock m m') (h' : Agree lock m' m'') :
    Agree lock m m'' := ⟨h.1.trans h'.1, h.2.trans h'.2⟩

-- The calls on other locks leave no trace on this one.
theorem after_filter (events : List Request) :
    Agree lock (after events) (after (events.filter fun r => r.lockId = .str lock)) := by
  have hrun : ∀ (events : List Request) (m m' : LeaseLockManager), Agree lock m m' →
      Agree lock (runFrom step m events)
        (runFrom step m' (events.filter fun r => r.lockId = .str lock)) := by
    intro events
    induction events with
    | nil => exact fun m m' h => h
    | cons r events ih =>
        intro m m' h
        by_cases hlock : r.lockId = .str lock
        · rw [List.filter_cons_of_pos (by simpa using hlock)]
          exact ih _ _ (call_agree lock m m' r hlock h).2
        · rw [List.filter_cons_of_neg (by simpa using hlock)]
          exact ih _ _ ((step_other lock m r hlock).trans lock h)
  exact hrun events _ _ ⟨rfl, rfl⟩

end Frame

-- What holds of one lock after these calls.
structure SafeAfter (events : List Request) (lock : PyStr) : Prop where
  increasing : (granted lock events).Pairwise fun old new => old.fencingToken < new.fencingToken
  unique : ∀ holder holder' token token' now,
    (after events).validateAction lock holder token now = true →
      (after events).validateAction lock holder' token' now = true → holder = holder' ∧ token = token'
  superseded : ∀ new ∈ granted lock events, ∀ token < new.fencingToken,
    (∀ holder now, (after events).validateAction lock holder token now = false) ∧
      (∀ holderId duration now, ∃ e,
        ((after events).renew (.str lock) holderId token duration now).1 = .error e) ∧
      (after events).isFenced lock token = true
  unfenced : ∀ holder token now, (after events).validateAction lock holder token now = true →
    (after events).isFenced lock token = false
  independent : ∀ r : Request, r.lockId = .str lock →
    (call (after events) r).1 = (call (after (events.filter fun r => r.lockId = .str lock)) r).1

section Takeover

-- The `acquire` finds an expired lease of its lock, and `now + duration` raises.
def InterruptsTakeover (m : LeaseLockManager) (r : Request) : Prop :=
  ∃ lock lease, Interrupts lock m r ∧ m.leases lock = some lease

-- Every lease carries the last token of its lock.
def Current (m : LeaseLockManager) : Prop :=
  ∀ lock lease, m.leases lock = some lease → lease.fencingToken = m.lastToken lock

def Unfenced (m : LeaseLockManager) : Prop :=
  ∀ lock holder token now, m.validateAction lock holder token now = true → m.isFenced lock token = false

theorem unfenced_of_current (m : LeaseLockManager) (h : Current m) : Unfenced m := by
  intro lock holder token now hvalid
  obtain ⟨lease, hlease, -⟩ := (m.validateAction_eq_true _ _ _ _).mp hvalid
  obtain ⟨hcurrent, -, htoken⟩ := (m.matchingLease_eq_some _ _ _ _).mp hlease
  have hlast := h lock lease hcurrent
  rw [LeaseLockManager.isFenced, decide_eq_false_iff_not]
  omega

theorem current_step (m : LeaseLockManager) (r : Request) (h : Current m)
    (hfine : ¬ InterruptsTakeover m r) : Current (step m r) := by
  intro lock lease hlease
  have hstep := lockStep m r lock
  rw [hlease] at hstep
  generalize hl : some lease = current, (step m r).lastToken lock = token,
    grantOf lock m r = grant at hstep ⊢
  cases hstep with
  | idle => exact h lock lease hl.symm
  | interrupted _ hinterrupt => exact absurd ⟨lock, lease, hinterrupt, hl.symm⟩ hfine
  | granted granted _ htoken =>
      obtain rfl := Option.some.inj hl
      exact htoken
  | renewed old renewed hcurrent htoken =>
      obtain rfl := Option.some.inj hl
      rw [htoken]
      exact h lock old hcurrent
  | released => cases hl

-- A clock reading that is not a number expires nothing.
def notANumber : PyNum := .float (0.0 / 0.0)

theorem isExpired_notANumber (lease : Lease) : lease.isExpired notANumber = false := by
  have hvalue : notANumber.value = none := by decide +kernel
  rw [Lease.isExpired, PyNum.le, hvalue]
  cases lease.expiresAt.value <;> rfl

theorem not_interruptsTakeover (m : LeaseLockManager) (r : Request) (h : Current m)
    (hnext : Unfenced (step m r)) : ¬ InterruptsTakeover m r := by
  rintro ⟨lock, lease, hinterrupt, hlease⟩
  have hstep := lockStep m r lock
  have hlast := h lock lease hlease
  have hnext := hnext lock lease.holderId lease.fencingToken notANumber
  rw [LeaseLockManager.isFenced, LeaseLockManager.validateAction_eq_true] at hnext
  simp only [LeaseLockManager.matchingLease_eq_some] at hnext
  generalize (step m r).leases lock = current, (step m r).lastToken lock = token,
    grantOf lock m r = grant at hstep hnext
  cases hstep with
  | interrupted =>
      have hfenced := hnext ⟨lease, ⟨hlease, rfl, rfl⟩, isExpired_notANumber lease⟩
      rw [decide_eq_false_iff_not] at hfenced
      omega
  | idle _ hfine => exact hfine hinterrupt
  | granted _ _ _ _ hfine => exact hfine hinterrupt
  | renewed _ _ _ _ _ hfine => exact hfine hinterrupt
  | released _ _ _ hfine => exact hfine hinterrupt

theorem always_unfenced_iff (events : List Request) :
    Always step Unfenced LeaseLockManager.init events ↔
      EachStep step (fun m r => ¬ InterruptsTakeover m r) LeaseLockManager.init events :=
  always_iff_eachStep Current Unfenced _ unfenced_of_current current_step not_interruptsTakeover _ events
    (fun _ _ h => nomatch h)

end Takeover

theorem safeAfter_iff (events : List Request) :
    (∀ lock, SafeAfter events lock) ↔ Unfenced (after events) := by
  constructor
  · intro h lock
    exact (h lock).unfenced
  · intro h lock
    refine ⟨granted_increasing lock events, validateAction_unique _ lock, ?_, h lock, ?_⟩
    · intro new hnew token hlt
      exact above_rejects _ lock _ token (above_granted lock events new hnew) hlt
    · intro r hr
      exact (call_agree lock _ _ r hr (after_filter lock events)).1

-- Only the last property needs that no takeover is interrupted.
theorem lease_safety_iff (events : List Request) :
    (∀ before, before <+: events → ∀ lock, SafeAfter before lock) ↔
      EachStep step (fun m r => ¬ InterruptsTakeover m r) LeaseLockManager.init events := by
  rw [← always_unfenced_iff, always_iff_everywhere]
  constructor
  · intro h before hbefore
    exact (safeAfter_iff before).mp (h before hbefore)
  · intro h before hbefore
    exact (safeAfter_iff before).mpr (h before hbefore)

-- A duration beyond every float, presented after the first lease expired.
def interruptedTakeover : List Request :=
  [.acquire (.str (py "task-a")) (.str (py "node-1")) (.int 10) (.float 100.0),
    .acquire (.str (py "task-a")) (.str (py "node-2")) (.int (10 ^ 400)) (.float 111.0)]

theorem validated_and_fenced : ¬ ∀ lock, SafeAfter interruptedTakeover lock := by
  intro h
  have hvalid : (after interruptedTakeover).validateAction (py "task-a") (py "node-1") 1 (.float 105.0) = true := by
    decide +kernel
  have hfenced : (after interruptedTakeover).isFenced (py "task-a") 1 = true := by decide +kernel
  have := (h (py "task-a")).unfenced (py "node-1") 1 (.float 105.0) hvalid
  rw [hfenced] at this
  cases this

end V91Core.LeaseLock
