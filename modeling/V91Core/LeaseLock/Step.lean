import V91Core.LeaseLock.Model

namespace V91Core.LeaseLock

open V91Core.Python

section Arguments

theorem requireId_eq_ok (name : String) (value : Json) (s : PyStr) :
    requireId name value = .ok s ↔ value = .str s ∧ strip s ≠ [] := by
  cases value with
  | str t =>
      rw [requireId]
      split_ifs with h
      · constructor
        · intro h'
          cases h'
        · rintro ⟨hs, hne⟩
          obtain rfl := Json.str.inj hs
          exact absurd h hne
      · simp only [Except.ok.injEq, Json.str.injEq]
        constructor
        · intro hs
          exact ⟨hs, hs ▸ h⟩
        · exact fun hs => hs.1
  | _ => simp [requireId]

theorem requireIds_eq_ok (lockId holderId : Json) (p : PyStr × PyStr)
    (h : requireIds lockId holderId = .ok p) : lockId = .str p.1 ∧ holderId = .str p.2 := by
  obtain ⟨lock, hlock, h⟩ := (bind_eq_ok _ _ _).mp h
  obtain ⟨holder, hholder, h⟩ := (bind_eq_ok _ _ _).mp h
  obtain rfl := Except.ok.inj h
  exact ⟨((requireId_eq_ok _ _ _).mp hlock).1, ((requireId_eq_ok _ _ _).mp hholder).1⟩

theorem requireRequest_eq_ok (lockId holderId duration : Json) (p : PyStr × PyStr × PyNum)
    (h : requireRequest lockId holderId duration = .ok p) : lockId = .str p.1 ∧ holderId = .str p.2.1 := by
  obtain ⟨ids, hids, h⟩ := (bind_eq_ok _ _ _).mp h
  obtain ⟨seconds, -, h⟩ := (bind_eq_ok _ _ _).mp h
  obtain rfl := Except.ok.inj h
  exact requireIds_eq_ok _ _ _ hids

end Arguments

namespace LeaseLockManager

variable (m : LeaseLockManager) (lock other : PyStr) (lease : Option Lease) (token : Int)

@[simp] theorem setLease_lastToken : (m.setLease lock lease).lastToken = m.lastToken := rfl

@[simp] theorem setLease_leases_self : (m.setLease lock lease).leases lock = lease := by
  simp [setLease]

@[simp] theorem setLastToken_self : (m.setLastToken lock token).lastToken lock = token := by
  simp [setLastToken]

theorem setLease_leases_of_ne (h : other ≠ lock) : (m.setLease lock lease).leases other = m.leases other := by
  simp [setLease, h]

theorem setLastToken_of_ne (h : other ≠ lock) :
    (m.setLastToken lock token).lastToken other = m.lastToken other := by
  simp [setLastToken, h]

theorem matchingLease_eq_some (holder : PyStr) (found : Lease) :
    m.matchingLease lock holder token = some found ↔
      m.leases lock = some found ∧ found.holderId = holder ∧ found.fencingToken = token := by
  rw [matchingLease, Option.filter_eq_some_iff, decide_eq_true_eq]

theorem validateAction_eq_true (holder : PyStr) (now : PyNum) :
    m.validateAction lock holder token now = true ↔
      ∃ found, m.matchingLease lock holder token = some found ∧ found.isExpired now = false := by
  unfold validateAction
  cases m.matchingLease lock holder token <;> simp

theorem isFenced_eq_true : m.isFenced lock token = true ↔ token < m.lastToken lock := decide_eq_true_iff

end LeaseLockManager

-- The `acquire` gets past the checks on this lock, but `now + duration` raises.
def Interrupts (lock : PyStr) (m : LeaseLockManager) : Request → Prop
  | .acquire lockId holderId duration now =>
      ∃ holder seconds e, requireRequest lockId holderId duration = .ok (lock, holder, seconds) ∧
        m.held lock now = false ∧ now.add seconds = .error e
  | _ => False

-- The lease of this lock that the call gives up.
def releaseOf (lock : PyStr) (m : LeaseLockManager) : Request → Option Lease
  | .release lockId holderId token =>
      match requireIds lockId holderId with
      | .ok (name, holder) => if name = lock then m.matchingLease lock holder token else none
      | .error _ => none
  | _ => none

-- What one call does to one lock: the lease and the last token that it leaves,
-- and the lease that it grants.
inductive LockStep (m : LeaseLockManager) (r : Request) (lock : PyStr) : Option Lease → Int → Option Lease → Prop
  | idle (hrelease : releaseOf lock m r = none) (hinterrupt : ¬ Interrupts lock m r) :
      LockStep m r lock (m.leases lock) (m.lastToken lock) none
  | granted (lease : Lease) (hlock : lease.lockId = lock)
      (htoken : lease.fencingToken = m.lastToken lock + 1) (hrelease : releaseOf lock m r = none)
      (hinterrupt : ¬ Interrupts lock m r) :
      LockStep m r lock (some lease) (m.lastToken lock + 1) (some lease)
  | interrupted (hrelease : releaseOf lock m r = none) (hinterrupt : Interrupts lock m r) :
      LockStep m r lock (m.leases lock) (m.lastToken lock + 1) none
  | renewed (lease renewed : Lease) (hlease : m.leases lock = some lease)
      (htoken : renewed.fencingToken = lease.fencingToken) (hrelease : releaseOf lock m r = none)
      (hinterrupt : ¬ Interrupts lock m r) :
      LockStep m r lock (some renewed) (m.lastToken lock) none
  | released (lease : Lease) (hlease : m.leases lock = some lease)
      (hrelease : releaseOf lock m r = some lease) (hinterrupt : ¬ Interrupts lock m r) :
      LockStep m r lock none (m.lastToken lock) none

section Calls

variable (m : LeaseLockManager)

theorem acquire_cases (lockId holderId duration : Json) (now : PyNum) :
    (∃ e, requireRequest lockId holderId duration = .error e ∧
      m.acquire lockId holderId duration now = (.error e, m)) ∨
    ∃ lock holder seconds, requireRequest lockId holderId duration = .ok (lock, holder, seconds) ∧
      ((m.held lock now = true ∧ m.acquire lockId holderId duration now = (.ok none, m)) ∨
       (m.held lock now = false ∧
        ((∃ e, now.add seconds = .error e ∧ m.acquire lockId holderId duration now =
          (.error e, m.setLastToken lock (m.lastToken lock + 1))) ∨
         ∃ lease : Lease, lease.lockId = lock ∧ lease.fencingToken = m.lastToken lock + 1 ∧
          (∃ expiresAt, now.add seconds = .ok expiresAt) ∧ m.acquire lockId holderId duration now =
            (.ok (some lease), (m.setLastToken lock lease.fencingToken).setLease lock (some lease))))) := by
  unfold LeaseLockManager.acquire
  cases hargs : requireRequest lockId holderId duration with
  | error e => exact .inl ⟨e, rfl, rfl⟩
  | ok p =>
      obtain ⟨lock, holder, seconds⟩ := p
      refine .inr ⟨lock, holder, seconds, rfl, ?_⟩
      by_cases hheld : m.held lock now = true
      · exact .inl ⟨hheld, by simp only [hheld, if_true]⟩
      · refine .inr ⟨by simpa using hheld, ?_⟩
        cases hadd : now.add seconds with
        | error e => exact .inl ⟨e, rfl, by simp only [hheld, hadd]; rfl⟩
        | ok expiresAt =>
            exact .inr ⟨⟨lock, holder, m.lastToken lock + 1, expiresAt⟩, rfl, rfl, ⟨expiresAt, rfl⟩, by
              simp only [hheld, hadd]
              rfl⟩

theorem renew_cases (lockId holderId : Json) (token : Int) (duration : Json) (now : PyNum) :
    (∃ e, m.renew lockId holderId token duration now = (.error e, m)) ∨
    ∃ lock holder lease renewed, lockId = .str lock ∧ m.matchingLease lock holder token = some lease ∧
      renewed.fencingToken = token ∧
      m.renew lockId holderId token duration now = (.ok renewed, m.setLease lock (some renewed)) := by
  unfold LeaseLockManager.renew
  cases hargs : requireRequest lockId holderId duration with
  | error e => exact .inl ⟨e, rfl⟩
  | ok p =>
      obtain ⟨lock, holder, seconds⟩ := p
      have hlock := (requireRequest_eq_ok _ _ _ _ hargs).1
      cases hlease : m.matchingLease lock holder token with
      | none =>
          simp only [hlease]
          exact .inl ⟨_, rfl⟩
      | some lease =>
          simp only [hlease]
          by_cases hexpired : lease.isExpired now = true
          · rw [if_pos hexpired]
            exact .inl ⟨_, rfl⟩
          · rw [if_neg hexpired]
            cases hadd : now.add seconds with
            | error e => exact .inl ⟨e, rfl⟩
            | ok expiresAt => exact .inr ⟨lock, holder, lease, _, hlock, hlease, rfl, rfl⟩

theorem release_cases (lockId holderId : Json) (token : Int) :
    (∃ e, m.release lockId holderId token = (.error e, m) ∧
      ∀ lock, releaseOf lock m (.release lockId holderId token) = none) ∨
    ∃ lock holder lease, requireIds lockId holderId = .ok (lock, holder) ∧
      m.matchingLease lock holder token = some lease ∧
      m.release lockId holderId token = (.ok (), m.setLease lock none) := by
  simp only [LeaseLockManager.release, releaseOf]
  cases hargs : requireIds lockId holderId with
  | error e => exact .inl ⟨e, rfl, fun _ => rfl⟩
  | ok p =>
      obtain ⟨lock, holder⟩ := p
      simp only
      cases hlease : m.matchingLease lock holder token with
      | none =>
          have hnone : ∀ other, (if lock = other then m.matchingLease other holder token else none) = none := by
            intro other
            split_ifs with hother
            · exact hother ▸ hlease
            · rfl
          by_cases hfree : m.leases lock = none
          · rw [if_pos hfree]
            exact .inl ⟨_, rfl, hnone⟩
          · rw [if_neg hfree, if_pos rfl]
            exact .inl ⟨_, rfl, hnone⟩
      | some lease =>
          have hheld := ((m.matchingLease_eq_some _ _ _ _).mp hlease).1
          refine .inr ⟨lock, holder, lease, rfl, hlease, ?_⟩
          simp [hheld]

end Calls

theorem lockStep (m : LeaseLockManager) (r : Request) (lock : PyStr) :
    LockStep m r lock ((step m r).leases lock) ((step m r).lastToken lock) (grantOf lock m r) := by
  cases r with
  | validateAction name holder token now => exact .idle rfl not_false
  | isFenced name token => exact .idle rfl not_false
  | acquire lockId holderId duration now =>
      rcases acquire_cases m lockId holderId duration now with ⟨e, hargs, hcall⟩ |
        ⟨name, holder, seconds, hargs, ⟨hheld, hcall⟩ | ⟨hfree, ⟨e, hadd, hcall⟩ |
          ⟨lease, hlock, htoken, ⟨expiresAt, hadd⟩, hcall⟩⟩⟩
      · simp only [step, call, grantOf, hcall, Prod.map, Except.map, id]
        apply LockStep.idle rfl
        rintro ⟨_, _, _, h, -⟩
        exact absurd (hargs.symm.trans h) (by simp)
      · simp only [step, call, grantOf, hcall, Prod.map, Except.map, id]
        apply LockStep.idle rfl
        rintro ⟨_, _, _, h, hfree, -⟩
        simp_all
      · simp only [step, call, grantOf, hcall, Prod.map, Except.map, id]
        by_cases hname : lock = name
        · subst hname
          rw [LeaseLockManager.setLastToken_self]
          exact .interrupted rfl ⟨holder, seconds, e, hargs, hfree, hadd⟩
        · rw [LeaseLockManager.setLastToken_of_ne _ _ _ _ hname]
          apply LockStep.idle rfl
          rintro ⟨_, _, _, h, -⟩
          simp_all
      · have hfine : ¬ Interrupts lock m (.acquire lockId holderId duration now) := by
          rintro ⟨_, _, _, h, -, hraise⟩
          simp_all
        simp only [step, call, grantOf, hcall, Prod.map, Except.map, id]
        by_cases hname : lock = name
        · subst hname
          rw [LeaseLockManager.setLease_leases_self, LeaseLockManager.setLease_lastToken,
            LeaseLockManager.setLastToken_self, Option.filter_some, if_pos (by simpa using hlock), htoken]
          exact .granted lease hlock htoken rfl hfine
        · have hother : ¬ lease.lockId = lock := by
            rw [hlock]
            exact Ne.symm hname
          rw [LeaseLockManager.setLease_leases_of_ne _ _ _ _ hname, LeaseLockManager.setLease_lastToken,
            LeaseLockManager.setLastToken_of_ne _ _ _ _ hname, Option.filter_some, if_neg (by simpa using hother)]
          exact .idle rfl hfine
  | renew lockId holderId token duration now =>
      rcases renew_cases m lockId holderId token duration now with ⟨e, hcall⟩ |
        ⟨name, holder, lease, renewed, hlock, hlease, htoken, hcall⟩
      · simp only [step, call, grantOf, hcall, Prod.map, Except.map, id]
        exact .idle rfl not_false
      · simp only [step, call, grantOf, hcall, Prod.map, Except.map, id]
        obtain ⟨hcurrent, -, htoken'⟩ := (m.matchingLease_eq_some _ _ _ _).mp hlease
        by_cases hname : lock = name
        · subst hname
          rw [LeaseLockManager.setLease_leases_self]
          exact .renewed lease renewed hcurrent (htoken.trans htoken'.symm) rfl not_false
        · rw [LeaseLockManager.setLease_leases_of_ne _ _ _ _ hname]
          exact .idle rfl not_false
  | release lockId holderId token =>
      rcases release_cases m lockId holderId token with ⟨e, hcall, hnone⟩ |
        ⟨name, holder, lease, hargs, hlease, hcall⟩
      · simp only [step, call, grantOf, hcall, Prod.map, Except.map, id]
        exact .idle (hnone lock) not_false
      · simp only [step, call, grantOf, hcall, Prod.map, Except.map, id]
        by_cases hname : lock = name
        · subst hname
          rw [LeaseLockManager.setLease_leases_self]
          have hrelease : releaseOf lock m (.release lockId holderId token) = some lease := by
            simp only [releaseOf, hargs, if_true, hlease]
          exact .released lease ((m.matchingLease_eq_some _ _ _ _).mp hlease).1 hrelease not_false
        · rw [LeaseLockManager.setLease_leases_of_ne _ _ _ _ hname]
          have hrelease : releaseOf lock m (.release lockId holderId token) = none := by
            simp only [releaseOf, hargs, Ne.symm hname, if_false]
          exact .idle hrelease not_false

end V91Core.LeaseLock
