import V91Core.LeaseLock.Safety
import V91Core.Python.FloatRange

namespace V91Core.LeaseLock

open V91Core.Python

section Requests

theorem requireDuration_eq_ok (duration : Json) (seconds : PyNum) :
    requireDuration duration = .ok seconds ↔ PyNum.ofJson duration = some seconds ∧ seconds.le (.int 0) = false := by
  unfold requireDuration
  cases PyNum.ofJson duration with
  | none => simp
  | some found =>
      by_cases hle : found.le (.int 0) = true
      · simp only [hle, if_true, reduceCtorEq, Option.some.injEq, false_iff, not_and]
        rintro rfl
        simp [hle]
      · simp only [hle, Bool.false_eq_true, if_false, Except.ok.injEq, Option.some.injEq]
        constructor
        · rintro rfl
          exact ⟨rfl, Bool.eq_false_iff.mpr hle⟩
        · exact fun h => h.1

theorem requireRequest_iff (lockId holderId duration : Json) (lock holder : PyStr) (seconds : PyNum) :
    requireRequest lockId holderId duration = .ok (lock, holder, seconds) ↔
      requireId "lock_id" lockId = .ok lock ∧ requireId "holder_id" holderId = .ok holder ∧
        requireDuration duration = .ok seconds := by
  unfold requireRequest requireIds
  cases requireId "lock_id" lockId with
  | error e => exact iff_of_false nofun nofun
  | ok name =>
      cases requireId "holder_id" holderId with
      | error e => exact iff_of_false nofun nofun
      | ok owner =>
          cases requireDuration duration with
          | error e => exact iff_of_false nofun nofun
          | ok found =>
              have hcall : (Except.ok (name, owner, found) : Except PyExc (PyStr × PyStr × PyNum)) =
                  .ok (lock, holder, seconds) ↔ name = lock ∧ owner = holder ∧ found = seconds := by
                rw [Except.ok.injEq, Prod.mk.injEq, Prod.mk.injEq]
              rw [Except.ok.injEq, Except.ok.injEq, Except.ok.injEq]
              exact hcall

end Requests

section Grants

variable (m : LeaseLockManager) (lock holder : PyStr) (now : PyNum)

theorem held_of_lease (lease : Lease) (hlease : m.leases lock = some lease) :
    m.held lock now = !lease.isExpired now := by
  rw [LeaseLockManager.held, hlease]

theorem acquire_free (lockId holderId duration : Json) (seconds sum : PyNum)
    (hargs : requireRequest lockId holderId duration = .ok (lock, holder, seconds))
    (hfree : m.held lock now = false) (hsum : now.add seconds = .ok sum) :
    m.acquire lockId holderId duration now =
      (.ok (some ⟨lock, holder, m.lastToken lock + 1, sum⟩),
        (m.setLastToken lock (m.lastToken lock + 1)).setLease lock
          (some ⟨lock, holder, m.lastToken lock + 1, sum⟩)) := by
  simp only [LeaseLockManager.acquire, hargs, hfree, hsum]
  rfl

theorem acquire_held (holderId duration : Json) (lease : Lease) (hheld : m.held lock now = true) :
    (m.acquire (.str lock) holderId duration now).1 ≠ .ok (some lease) := by
  unfold LeaseLockManager.acquire
  cases hargs : requireRequest (.str lock) holderId duration with
  | error e => nofun
  | ok p =>
      obtain ⟨name, owner, seconds⟩ := p
      obtain rfl := Json.str.inj (requireRequest_eq_ok _ _ _ _ hargs).1
      simp only [hheld, if_true]
      nofun

-- What a lease that was asked for says, and that the lock is under it.
theorem acquire_eq_some (lockId holderId duration : Json) (lease : Lease)
    (h : (m.acquire lockId holderId duration now).1 = .ok (some lease)) :
    requireId "lock_id" lockId = .ok lease.lockId ∧
      (∃ seconds, requireDuration duration = .ok seconds ∧ now.add seconds = .ok lease.expiresAt) ∧
      (m.acquire lockId holderId duration now).2.leases lease.lockId = some lease := by
  rcases acquire_cases m lockId holderId duration now with ⟨e, -, hcall⟩ |
    ⟨name, owner, seconds, hargs, ⟨-, hcall⟩ | ⟨hfree, ⟨e, -, hcall⟩ | ⟨-, -, -, ⟨sum, hsum⟩, -⟩⟩⟩
  · rw [hcall] at h
    cases h
  · rw [hcall] at h
    cases h
  · rw [hcall] at h
    cases h
  · have hcall := acquire_free m name owner now lockId holderId duration seconds sum hargs hfree hsum
    rw [hcall] at h ⊢
    obtain rfl := Option.some.inj (Except.ok.inj h)
    obtain ⟨hlock, -, hduration⟩ := (requireRequest_iff _ _ _ _ _ _).mp hargs
    exact ⟨hlock, ⟨seconds, hduration, hsum⟩, LeaseLockManager.setLease_leases_self _ _ _⟩

theorem renew_eq_ok (lockId holderId : Json) (token : Int) (duration : Json) (lease : Lease)
    (h : (m.renew lockId holderId token duration now).1 = .ok lease) :
    requireId "lock_id" lockId = .ok lease.lockId ∧
      (∃ seconds, requireDuration duration = .ok seconds ∧ now.add seconds = .ok lease.expiresAt) ∧
      (m.renew lockId holderId token duration now).2.leases lease.lockId = some lease := by
  unfold LeaseLockManager.renew at h ⊢
  cases hargs : requireRequest lockId holderId duration with
  | error e =>
      rw [hargs] at h
      cases h
  | ok p =>
      obtain ⟨name, owner, seconds⟩ := p
      obtain ⟨hlock, -, hduration⟩ := (requireRequest_iff _ _ _ _ _ _).mp hargs
      simp only [hargs] at h ⊢
      cases hlease : m.matchingLease name owner token with
      | none =>
          simp only [hlease] at h
          cases h
      | some current =>
          simp only [hlease] at h ⊢
          by_cases hexpired : current.isExpired now = true
          · rw [if_pos hexpired] at h
            cases h
          · rw [if_neg hexpired] at h ⊢
            cases hsum : now.add seconds with
            | error e =>
                simp only [hsum] at h
                cases h
            | ok sum =>
                simp only [hsum] at h ⊢
                obtain rfl := Except.ok.inj h
                exact ⟨hlock, ⟨seconds, hduration, hsum⟩, LeaseLockManager.setLease_leases_self _ _ _⟩

end Grants

-- The lock goes to this holder, for this duration.
def Grants (m : LeaseLockManager) (lock holder : PyStr) (duration : Json) (now : PyNum) : Prop :=
  ∃ next, (m.acquire (.str lock) (.str holder) duration now).1 = .ok (some next) ∧ next.holderId = holder

-- The lease keeps nobody out at this reading, in any manager that still has it.
structure OverAt (lease : Lease) (now : PyNum) : Prop where
  expired : lease.isExpired now = true
  invalid : ∀ m : LeaseLockManager, m.leases lease.lockId = some lease →
    m.validateAction lease.lockId lease.holderId lease.fencingToken now = false
  second : ∀ m : LeaseLockManager, m.leases lease.lockId = some lease → ∀ holder, strip holder ≠ [] →
    Grants m lease.lockId holder (.int 1) now
  acquirable : ∀ m : LeaseLockManager, m.leases lease.lockId = some lease → ∀ holder, strip holder ≠ [] →
    ∀ duration seconds sum, requireDuration duration = .ok seconds → now.add seconds = .ok sum →
      Grants m lease.lockId holder duration now

-- There is a time from which on the lease is over.
def Expires (lease : Lease) : Prop :=
  ∃ deadline : PyNum, deadline.IsReal ∧ ∀ now : PyNum, now.IsReal → deadline.le now = true → OverAt lease now

-- The reading and the duration have a sum that is neither infinite nor a NaN.
def InRange (now : PyNum) (duration : Json) : Prop :=
  ∃ seconds, PyNum.ofJson duration = some seconds ∧ now.SumInRange seconds

section Deadlines

theorem add_second (now : PyNum) : ∃ sum, now.add (.int 1) = .ok sum := by
  cases now with
  | int n => exact ⟨_, rfl⟩
  | float x =>
      obtain ⟨y, hy⟩ : ∃ y, (PyNum.int 1).toFloat = .ok y := ⟨1.0, by decide +kernel⟩
      refine ⟨.float (x + y), ?_⟩
      rw [PyNum.add, hy]
      · rfl
      · exact nofun

theorem le_self (a : PyNum) (h : a.IsReal) : a.le a = true := by
  obtain ⟨q, hq⟩ := h
  exact (PyNum.le_iff a a).mpr ⟨_, _, hq, hq, le_rfl⟩

theorem overAt_of_le (lease : Lease) (now : PyNum) (hlock : requireId "lock_id" (.str lease.lockId) = .ok lease.lockId)
    (h : lease.expiresAt.le now = true) : OverAt lease now := by
  have hexpired : lease.isExpired now = true := h
  have hgrants : ∀ m : LeaseLockManager, m.leases lease.lockId = some lease → ∀ holder, strip holder ≠ [] →
      ∀ duration seconds sum, requireDuration duration = .ok seconds → now.add seconds = .ok sum →
        Grants m lease.lockId holder duration now := by
    intro m hlease holder hholder duration seconds sum hduration hsum
    have hargs := (requireRequest_iff (.str lease.lockId) (.str holder) duration _ _ _).mpr
      ⟨hlock, (requireId_eq_ok _ _ _).mpr ⟨rfl, hholder⟩, hduration⟩
    have hfree : m.held lease.lockId now = false := by
      rw [held_of_lease m _ now lease hlease, hexpired]
      rfl
    exact ⟨_, congrArg Prod.fst (acquire_free m _ holder now _ _ _ seconds sum hargs hfree hsum), rfl⟩
  refine ⟨hexpired, ?_, ?_, hgrants⟩
  · intro m hlease
    have hmatching := (m.matchingLease_eq_some lease.lockId lease.fencingToken lease.holderId lease).mpr
      ⟨hlease, rfl, rfl⟩
    rw [LeaseLockManager.validateAction, hmatching]
    dsimp only
    rw [hexpired]
    rfl
  · intro m hlease holder hholder
    obtain ⟨sum, hsum⟩ := add_second now
    have hduration : requireDuration (.int 1) = .ok (.int 1) := by decide +kernel
    exact hgrants m hlease holder hholder (.int 1) (.int 1) sum hduration hsum

theorem expires_iff (lease : Lease) (lockId duration : Json) (now seconds : PyNum) (hnow : now.IsReal)
    (hlock : requireId "lock_id" lockId = .ok lease.lockId) (hduration : requireDuration duration = .ok seconds)
    (hsum : now.add seconds = .ok lease.expiresAt) : Expires lease ↔ InRange now duration := by
  obtain ⟨hseconds, hpositive⟩ := (requireDuration_eq_ok duration seconds).mp hduration
  have hrange : InRange now duration ↔ lease.expiresAt.IsReal := by
    rw [PyNum.isReal_add_iff now seconds _ hnow hsum]
    constructor
    · rintro ⟨found, hfound, h⟩
      obtain rfl := Option.some.inj (hseconds.symm.trans hfound)
      exact h
    · exact fun h => ⟨seconds, hseconds, h⟩
  have hname : requireId "lock_id" (.str lease.lockId) = .ok lease.lockId :=
    (requireId_eq_ok _ _ _).mpr ⟨rfl, ((requireId_eq_ok _ _ _).mp hlock).2⟩
  rw [hrange]
  constructor
  · rintro ⟨deadline, hreal, hover⟩
    have hexpired := (hover deadline hreal (le_self deadline hreal)).expired
    exact PyNum.isReal_of_le _ deadline hreal hexpired (PyNum.add_not_negative now seconds _ hnow hpositive hsum)
  · intro hreal
    exact ⟨lease.expiresAt, hreal, fun reading _ hle => overAt_of_le lease reading hname hle⟩

end Deadlines

-- The check of the duration lets numbers through that make no deadline.
theorem leases_expire_iff (m : LeaseLockManager) (lockId holderId duration : Json) (now : PyNum) (hnow : now.IsReal) :
    (∀ lease, (m.acquire lockId holderId duration now).1 = .ok (some lease) →
      (m.acquire lockId holderId duration now).2.leases lease.lockId = some lease ∧
        (Expires lease ↔ InRange now duration)) ∧
    (∀ token lease, (m.renew lockId holderId token duration now).1 = .ok lease →
      (m.renew lockId holderId token duration now).2.leases lease.lockId = some lease ∧
        (Expires lease ↔ InRange now duration)) := by
  constructor
  · intro lease h
    obtain ⟨hlock, ⟨seconds, hduration, hsum⟩, hlease⟩ := acquire_eq_some m now lockId holderId duration lease h
    exact ⟨hlease, expires_iff lease lockId duration now seconds hnow hlock hduration hsum⟩
  · intro token lease h
    obtain ⟨hlock, ⟨seconds, hduration, hsum⟩, hlease⟩ := renew_eq_ok m now lockId holderId token duration lease h
    exact ⟨hlease, expires_iff lease lockId duration now seconds hnow hlock hduration hsum⟩

-- Ten seconds are granted at one time, and twenty more before they are over.
theorem lease_of_ten_seconds_expires :
    ∃ first renewed after, LeaseLockManager.init.acquire (.str (py "task-a")) (.str (py "node-1")) (.int 10)
        (.float 100.0) = (.ok (some first), after) ∧ Expires first ∧
      (after.renew (.str (py "task-a")) (.str (py "node-1")) 1 (.int 20) (.float 105.0)).1 = .ok renewed ∧
      Expires renewed := by
  have hfirst : (PyNum.float 100.0).IsReal := (PyNum.isReal_float _).mpr (by decide +kernel)
  have hlater : (PyNum.float 105.0).IsReal := (PyNum.isReal_float _).mpr (by decide +kernel)
  have hten : InRange (.float 100.0) (.int 10) :=
    ⟨.int 10, rfl, (PyNum.isReal_add_iff _ _ (.float 110.0) hfirst (by decide +kernel)).mp
      ((PyNum.isReal_float _).mpr (by decide +kernel))⟩
  have htwenty : InRange (.float 105.0) (.int 20) :=
    ⟨.int 20, rfl, (PyNum.isReal_add_iff _ _ (.float 125.0) hlater (by decide +kernel)).mp
      ((PyNum.isReal_float _).mpr (by decide +kernel))⟩
  have hacquired := acquire_free LeaseLockManager.init (py "task-a") (py "node-1") (.float 100.0) (.str (py "task-a"))
    (.str (py "node-1")) (.int 10) (.int 10) (.float 110.0) (by decide +kernel) rfl (by decide +kernel)
  have hrenewed : ((LeaseLockManager.init.acquire (.str (py "task-a")) (.str (py "node-1")) (.int 10)
      (.float 100.0)).2.renew (.str (py "task-a")) (.str (py "node-1")) 1 (.int 20) (.float 105.0)).1 =
        .ok ⟨py "task-a", py "node-1", 1, .float 125.0⟩ := by decide +kernel
  rw [hacquired] at hrenewed
  refine ⟨_, ⟨py "task-a", py "node-1", 1, .float 125.0⟩, _, hacquired, ?_, hrenewed, ?_⟩
  · exact (((leases_expire_iff LeaseLockManager.init (.str (py "task-a")) (.str (py "node-1")) (.int 10)
      (.float 100.0) hfirst).1 _ (congrArg Prod.fst hacquired)).2).mpr hten
  · exact (((leases_expire_iff _ (.str (py "task-a")) (.str (py "node-1")) (.int 20)
      (.float 105.0) hlater).2 1 _ hrenewed).2).mpr htwenty

-- A duration that is not a number makes a lease that nothing ends.
theorem nan_duration_locks_for_ever :
    ∃ lease after, LeaseLockManager.init.acquire (.str (py "task-a")) (.str (py "node-1")) (.float (0.0 / 0.0))
        (.float 100.0) = (.ok (some lease), after) ∧ ¬ Expires lease ∧ (∀ now, lease.isExpired now = false) ∧
      (∀ now, after.validateAction (py "task-a") (py "node-1") 1 now = true) ∧
      ∀ holderId duration now next, (after.acquire (.str (py "task-a")) holderId duration now).1 ≠ .ok (some next) := by
  have hacquired := acquire_free LeaseLockManager.init (py "task-a") (py "node-1") (.float 100.0) (.str (py "task-a"))
    (.str (py "node-1")) (.float (0.0 / 0.0)) (.float (0.0 / 0.0)) (.float (0.0 / 0.0)) (by decide +kernel) rfl
    (by decide +kernel)
  have hkept : ∀ now, (⟨py "task-a", py "node-1", 1, .float (0.0 / 0.0)⟩ : Lease).isExpired now = false := by
    intro now
    have hvalue : (PyNum.float (0.0 / 0.0)).value = none := by decide +kernel
    rw [Lease.isExpired, PyNum.le, hvalue]
  have hlease := LeaseLockManager.setLease_leases_self
    (LeaseLockManager.init.setLastToken (py "task-a") (LeaseLockManager.init.lastToken (py "task-a") + 1))
    (py "task-a") (some ⟨py "task-a", py "node-1", 1, .float (0.0 / 0.0)⟩)
  refine ⟨_, _, hacquired, ?_, hkept, ?_, ?_⟩
  · rintro ⟨deadline, hreal, hover⟩
    have hexpired := (hover deadline hreal (le_self deadline hreal)).expired
    cases hexpired.symm.trans (hkept deadline)
  · intro now
    exact (LeaseLockManager.validateAction_eq_true _ _ _ _ now).mpr
      ⟨_, (LeaseLockManager.matchingLease_eq_some _ _ _ _ _).mpr ⟨hlease, rfl, rfl⟩, hkept now⟩
  · intro holderId duration now next
    have hheld := held_of_lease _ (py "task-a") now _ hlease
    rw [hkept now] at hheld
    exact acquire_held _ (py "task-a") now holderId duration next hheld

end V91Core.LeaseLock
